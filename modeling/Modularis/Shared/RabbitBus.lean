import Mathlib.Data.List.Nodup
import Mathlib.Data.Rat.Defs
import Modularis.Foundation.StepSystem

/-!
The RPC side of `RabbitBusService`, which the onboarding service and the gateway
both declare: the map of pending calls, their timers, replies and shutdown.  Each
callback runs to its end before the next one.
-/

namespace Modularis.Shared.RabbitBus

open Modularis.Foundation

section Replies

/-- What `JSON.parse` answers. -/
inductive Json where
  | null
  | bool (value : Bool)
  | number (value : Rat)
  | string (value : String)
  | array (items : List Json)
  | object (members : List (String × Json))

/-- A property; none of those that are read is one of an array. -/
def Json.get (key : String) : Json → Option Json
  | .object members => members.lookup key
  | _ => none

/-- `typeof value === 'object'` and not null: arrays are records, too. -/
def isRecord : Json → Bool
  | .object _ | .array _ => true
  | _ => false

/-- The member is there and is a number. -/
def isNumber : Option Json → Bool
  | some (.number _) => true
  | _ => false

/-- The member is there and is a string. -/
def isString : Option Json → Bool
  | some (.string _) => true
  | _ => false

/-- The shape of a response: a success has data, a failure an error with status, title and
detail. -/
def isRpcResponse (value : Json) : Bool :=
  isRecord value &&
    match value.get "success" with
    | some (.bool true) => (value.get "data").isSome
    | some (.bool false) =>
        match value.get "error" with
        | some error =>
            isRecord error && isNumber (error.get "status") &&
              isString (error.get "title") && isString (error.get "detail")
        | none => false
    | _ => false

/-- The payload of an envelope whose payload is a response. -/
def rpcEnvelopePayload (value : Json) : Option Json :=
  if isRecord value then (value.get "payload").filter isRpcResponse else none

/-- A reply is an envelope around a response, or a response, or an error. -/
def normalizeRpcResponse (response : Json) : Except String Json :=
  match rpcEnvelopePayload response with
  | some payload => .ok payload
  | none =>
      if isRpcResponse response then .ok response
      else .error "Invalid RPC response payload"

/-- The white space that `trim` removes. -/
def isTrimmed (c : Char) : Bool :=
  c.toNat ∈ [0x09, 0x0A, 0x0B, 0x0C, 0x0D, 0x20, 0xA0, 0x1680, 0x2028, 0x2029,
    0x202F, 0x205F, 0x3000, 0xFEFF] ||
  decide (0x2000 ≤ c.toNat ∧ c.toNat ≤ 0x200A)

/-- `none` is a property that is no string. -/
def messageCorrelationId (correlationId : Option String) : Option String :=
  correlationId.filter fun value => !value.toList.all isTrimmed

end Replies

section Bus

/-- How a promise is settled. -/
inductive Outcome where
  | resolved (response : Json)
  | rejected (error : String)

/-- An entry of `pendingRpc`: whose promise waits under an id, and its timer. -/
structure PendingRpc where
  rpcId : String
  promise : Nat
  timeout : Nat
deriving DecidableEq, Repr

/-- A timer that has neither fired nor been cleared, with what its callback uses. -/
structure Timer where
  timeout : Nat
  rpcId : String
  promise : Nat
  routingKey : String
deriving DecidableEq, Repr

/-- A call of `sendRpc` that has made a promise. -/
structure Call where
  promise : Nat
  rpcId : String
  routingKey : String
deriving DecidableEq, Repr

/-- `ready` if the channel and its reply queue are there.  `calls` and
`settlements`, what `resolve` and `reject` were called with, are a history. -/
structure World where
  ready : Bool
  pendingRpc : List PendingRpc
  timers : List Timer
  calls : List Call
  settlements : List (Nat × Outcome)

/-- Not connected, and nobody waits. -/
def World.init : World where
  ready := false
  pendingRpc := []
  timers := []
  calls := []
  settlements := []

/-- What reaches the bus: calls, replies, timers that fire, and the end of the module. -/
inductive Event where
  | connected
  | sendRpc (routingKey rpcId : String)
  | reply (correlationId : Option String) (content : String)
  | timeout (timeout : Nat)
  | shutdown
deriving DecidableEq, Repr

/-- The entry under an id, if somebody waits there. -/
def World.get (world : World) (rpcId : String) : Option PendingRpc :=
  world.pendingRpc.find? fun pending => decide (pending.rpcId = rpcId)

/-- The id is taken out, whoever waits under it. -/
def World.delete (world : World) (rpcId : String) : World :=
  { world with
    pendingRpc := world.pendingRpc.filter fun pending => decide (pending.rpcId ≠ rpcId) }

/-- The timer does not fire any more. -/
def World.clearTimeout (world : World) (timeout : Nat) : World :=
  { world with
    timers := world.timers.filter fun timer => decide (timer.timeout ≠ timeout) }

/-- A promise is resolved or rejected. -/
def World.settle (world : World) (promise : Nat) (outcome : Outcome) : World :=
  { world with settlements := world.settlements ++ [(promise, outcome)] }

/-- The body of the `try` of `onRpcReply` and its `catch`. -/
def readReply (parseJson : String → Except String Json) (content : String) : Outcome :=
  match parseJson content with
  | .error error => .rejected error
  | .ok parsed =>
      match normalizeRpcResponse parsed with
      | .error error => .rejected error
      | .ok response => .resolved response

/-- A call that is not ready throws before it makes a promise. -/
def sendRpc (world : World) (routingKey rpcId : String) : World :=
  if world.ready then
    let promise := world.calls.length
    { world.delete rpcId with
      timers := world.timers ++
        [{ timeout := promise
           rpcId := rpcId
           promise := promise
           routingKey := routingKey }]
      pendingRpc := (world.delete rpcId).pendingRpc ++
        [{ rpcId := rpcId
           promise := promise
           timeout := promise }]
      calls := world.calls ++
        [{ promise := promise
           rpcId := rpcId
           routingKey := routingKey }] }
  else world

/-- A reply goes to the one who waits under its correlation id; otherwise it is dropped.
-/
def onRpcReply (parseJson : String → Except String Json) (world : World)
    (correlationId : Option String) (content : String) : World :=
  match (messageCorrelationId correlationId).bind world.get with
  | none => world
  | some pending =>
      ((world.delete pending.rpcId).clearTimeout pending.timeout).settle pending.promise
        (readReply parseJson content)

/-- The callback of `setTimeout`; the timer is gone when it fires. -/
def onTimeout (world : World) (timer : Timer) : World :=
  ((world.clearTimeout timer.timeout).delete timer.rpcId).settle timer.promise
    (.rejected ("RPC timeout for " ++ timer.routingKey))

/-- The loop of `onModuleDestroy`. -/
def rejectAll (world : World) : List PendingRpc → World
  | [] => world
  | pending :: rest =>
      rejectAll ((world.clearTimeout pending.timeout).settle pending.promise
        (.rejected "Rabbit bus is shutting down")) rest

/-- Everyone who still waits is rejected. -/
def onModuleDestroy (world : World) : World :=
  { rejectAll world world.pendingRpc with pendingRpc := [] }

/-- A call draws an id that none has had; a timer fires while it is active. -/
def step (parseJson : String → Except String Json) (world : World) :
    Event → Option World
  | .connected => some { world with ready := true }
  | .sendRpc routingKey rpcId =>
      if rpcId ∈ world.calls.map Call.rpcId then none
      else some (sendRpc world routingKey rpcId)
  | .reply correlationId content =>
      some (onRpcReply parseJson world correlationId content)
  | .timeout timeout =>
      (world.timers.find? fun timer => decide (timer.timeout = timeout)).map
        (onTimeout world)
  | .shutdown => some (onModuleDestroy world)

abbrev Run (parseJson : String → Except String Json) :=
  StepSystem.Run (step parseJson) World.init

end Bus

section Promises

/-- How a promise was settled, oldest first. -/
def World.settlementsOf (world : World) (promise : Nat) : List Outcome :=
  (world.settlements.filter fun settled => decide (settled.1 = promise)).map Prod.snd

/-- The entry that a call has left. -/
def Call.pending (call : Call) : PendingRpc where
  rpcId := call.rpcId
  promise := call.promise
  timeout := call.promise

/-- The timer that a call has set. -/
def Call.timer (call : Call) : Timer where
  timeout := call.promise
  rpcId := call.rpcId
  promise := call.promise
  routingKey := call.routingKey

/-- The entry and the timer of a call are there until its promise is settled. -/
structure Stands (world : World) (call : Call) (outcome : Option Outcome) : Prop where
  pending : call.pending ∈ world.pendingRpc ↔ outcome = none
  timer : call.timer ∈ world.timers ↔ outcome = none
  settlements : world.settlementsOf call.promise = outcome.toList

/-- What waits was called, under ids and promises of its own. -/
structure Consistent (world : World) : Prop where
  ids : (world.calls.map Call.rpcId).Nodup
  promises : world.calls.map Call.promise = List.range world.calls.length
  pendingRpc : ∀ pending ∈ world.pendingRpc, ∃ call ∈ world.calls, call.pending = pending
  distinct : world.pendingRpc.Nodup
  timers : ∀ timer ∈ world.timers, ∃ call ∈ world.calls, call.timer = timer
  settlements : ∀ settled ∈ world.settlements, settled.1 < world.calls.length
  calls : ∀ call ∈ world.calls, ∃ outcome, Stands world call outcome

/-- What an event decides about a call that was made before it. -/
def decides (parseJson : String → Except String Json) (call : Call) :
    Event → Option Outcome
  | .reply correlationId content =>
      if messageCorrelationId correlationId = some call.rpcId then
        some (readReply parseJson content)
      else none
  | .timeout timeout =>
      if timeout = call.promise then
        some (.rejected ("RPC timeout for " ++ call.routingKey))
      else none
  | .shutdown => some (.rejected "Rabbit bus is shutting down")
  | _ => none

/-- The call that an event makes. -/
def callMade : World × Event → Option Call
  | (world, .sendRpc routingKey rpcId) =>
      if world.ready then
        some
          { promise := world.calls.length
            rpcId := rpcId
            routingKey := routingKey }
      else none
  | _ => none

theorem settlementsOf_append (world : World) (settlements : List (Nat × Outcome))
    (promise : Nat) :
    { world with settlements := world.settlements ++ settlements }.settlementsOf promise =
      world.settlementsOf promise ++
        (settlements.filter fun settled => decide (settled.1 = promise)).map Prod.snd := by
  simp [World.settlementsOf]

theorem settlementsOf_settle (world : World) (settled promise : Nat) (outcome : Outcome) :
    (world.settle settled outcome).settlementsOf promise =
      world.settlementsOf promise ++ if settled = promise then [outcome] else [] := by
  rw [World.settle, settlementsOf_append]
  by_cases h : settled = promise
  · simp [h]
  · simp [h]

theorem Consistent.eq_of_rpcId {world : World} (h : Consistent world) {call other : Call}
    (hcall : call ∈ world.calls) (hother : other ∈ world.calls)
    (hid : call.rpcId = other.rpcId) : call = other :=
  List.inj_on_of_nodup_map h.ids hcall hother hid

theorem Consistent.eq_of_promise {world : World} (h : Consistent world)
    {call other : Call} (hcall : call ∈ world.calls) (hother : other ∈ world.calls)
    (hpromise : call.promise = other.promise) : call = other := by
  have hnodup : (world.calls.map Call.promise).Nodup := by
    rw [h.promises]
    exact List.nodup_range
  exact List.inj_on_of_nodup_map hnodup hcall hother hpromise

theorem Consistent.promise_lt {world : World} (h : Consistent world) {call : Call}
    (hcall : call ∈ world.calls) : call.promise < world.calls.length := by
  have hmem : call.promise ∈ world.calls.map Call.promise := List.mem_map_of_mem hcall
  rw [h.promises] at hmem
  exact List.mem_range.mp hmem

theorem Stands.eq_none {world : World} {call : Call} {outcome : Option Outcome}
    (h : Stands world call outcome) (hpending : call.pending ∈ world.pendingRpc) :
    outcome = none :=
  h.pending.mp hpending

theorem Consistent.settlements_le {world : World} (h : Consistent world)
    (promise : Nat) : (world.settlementsOf promise).length ≤ 1 := by
  by_cases hmade : promise ∈ world.calls.map Call.promise
  · obtain ⟨call, hcall, rfl⟩ := List.mem_map.mp hmade
    obtain ⟨settled, hstands⟩ := h.calls call hcall
    rw [hstands.settlements]
    exact Option.length_toList_le
  · have hnone : (world.settlements.filter fun settled =>
        decide (settled.1 = promise)) = [] := by
      rw [List.filter_eq_nil_iff]
      intro settled hsettled hsame
      rw [h.promises, List.mem_range, ← of_decide_eq_true hsame] at hmade
      exact hmade (h.settlements settled hsettled)
    simp [World.settlementsOf, hnone]

theorem Consistent.nodup_rpcIds {world : World} (h : Consistent world) :
    (world.pendingRpc.map PendingRpc.rpcId).Nodup := by
  refine h.distinct.map_on ?_
  intro pending hpending other hother hid
  obtain ⟨call, hcall, rfl⟩ := h.pendingRpc pending hpending
  obtain ⟨call', hcall', rfl⟩ := h.pendingRpc other hother
  rw [h.eq_of_rpcId hcall hcall' hid]

theorem Consistent.mem_rpcIds_iff {world : World} (h : Consistent world)
    (rpcId : String) : rpcId ∈ world.pendingRpc.map PendingRpc.rpcId ↔
      ∃ call ∈ world.calls, call.rpcId = rpcId ∧
        world.settlementsOf call.promise = [] := by
  rw [List.mem_map]
  constructor
  · rintro ⟨pending, hpending, rfl⟩
    obtain ⟨call, hcall, rfl⟩ := h.pendingRpc pending hpending
    obtain ⟨settled, hstands⟩ := h.calls call hcall
    refine ⟨call, hcall, rfl, ?_⟩
    rw [hstands.settlements, hstands.eq_none hpending]
    rfl
  · rintro ⟨call, hcall, rfl, hopen⟩
    obtain ⟨settled, hstands⟩ := h.calls call hcall
    rw [hstands.settlements, Option.toList_eq_nil_iff] at hopen
    exact ⟨call.pending, hstands.pending.mpr hopen, rfl⟩

theorem consistent_init : Consistent World.init where
  ids := List.nodup_nil
  promises := rfl
  pendingRpc := by simp [World.init]
  distinct := List.nodup_nil
  timers := by simp [World.init]
  settlements := by simp [World.init]
  calls := by simp [World.init]

end Promises

section Steps

variable {parseJson : String → Except String Json}

/-- What a reply and a timer do to the call that they are about. -/
def finish (world : World) (call : Call) (outcome : Outcome) : World :=
  ((world.delete call.rpcId).clearTimeout call.promise).settle call.promise outcome

section Finish

variable (world : World) (call : Call) (outcome : Outcome)

theorem mem_pendingRpc_finish (pending : PendingRpc) :
    pending ∈ (finish world call outcome).pendingRpc ↔
      pending ∈ world.pendingRpc ∧ pending.rpcId ≠ call.rpcId := by
  simp [finish, World.delete, World.clearTimeout, World.settle]

theorem mem_timers_finish (timer : Timer) :
    timer ∈ (finish world call outcome).timers ↔
      timer ∈ world.timers ∧ timer.timeout ≠ call.promise := by
  simp [finish, World.delete, World.clearTimeout, World.settle]

theorem settlementsOf_finish (promise : Nat) :
    (finish world call outcome).settlementsOf promise =
      world.settlementsOf promise ++ if call.promise = promise then [outcome] else [] :=
  settlementsOf_settle _ _ _ _

end Finish

theorem Stands.finish_self {world : World} {call : Call}
    (h : Stands world call none) (outcome : Outcome) :
    Stands (finish world call outcome) call (some outcome) where
  pending := by simp [mem_pendingRpc_finish, Call.pending]
  timer := by simp [mem_timers_finish, Call.timer]
  settlements := by
    rw [settlementsOf_finish, h.settlements, if_pos rfl]
    rfl

theorem Stands.finish_other {world : World} {call other : Call} {settled : Option Outcome}
    (hconsistent : Consistent world) (hcall : call ∈ world.calls)
    (hother : other ∈ world.calls) (hne : other ≠ call) (h : Stands world other settled)
    (outcome : Outcome) : Stands (finish world call outcome) other settled := by
  have hid : other.rpcId ≠ call.rpcId :=
    fun hid => hne (hconsistent.eq_of_rpcId hother hcall hid)
  have hpromise : call.promise ≠ other.promise :=
    fun hpromise => hne (hconsistent.eq_of_promise hother hcall hpromise.symm)
  constructor
  · rw [mem_pendingRpc_finish, h.pending]
    exact and_iff_left hid
  · rw [mem_timers_finish, h.timer]
    exact and_iff_left (Ne.symm hpromise)
  · rw [settlementsOf_finish, h.settlements, if_neg hpromise, List.append_nil]

theorem Consistent.finish {world : World} (h : Consistent world) {call : Call}
    (hcall : call ∈ world.calls) (hstands : Stands world call none) (outcome : Outcome) :
    Consistent (finish world call outcome) where
  ids := h.ids
  promises := h.promises
  pendingRpc := by
    intro pending hpending
    exact h.pendingRpc pending ((mem_pendingRpc_finish _ _ _ _).mp hpending).1
  distinct := h.distinct.filter _
  timers := by
    intro timer htimer
    exact h.timers timer ((mem_timers_finish _ _ _ _).mp htimer).1
  settlements := by
    intro settled hsettled
    rcases List.mem_append.mp hsettled with hold | hnew
    · exact h.settlements settled hold
    · rw [List.mem_singleton.mp hnew]
      exact h.promise_lt hcall
  calls := by
    intro other hother
    by_cases hsame : other = call
    · rw [hsame]
      exact ⟨some outcome, hstands.finish_self outcome⟩
    · obtain ⟨settled, hsettled⟩ := h.calls other hother
      exact ⟨settled, hsettled.finish_other h hcall hother hsame outcome⟩

theorem stands_finish {world : World} (hconsistent : Consistent world) {call other : Call}
    (hcall : call ∈ world.calls) (hother : other ∈ world.calls)
    (hstands : Stands world call none) {settled : Option Outcome}
    (h : Stands world other settled) {outcome : Outcome} {decided : Option Outcome}
    (hself : other = call → decided = some outcome) (hrest : other ≠ call → decided = none) :
    Stands (finish world call outcome) other (settled.or decided) := by
  by_cases hsame : other = call
  · rw [hself hsame, hsame, h.eq_none (hsame ▸ hstands.pending.mpr rfl)]
    exact hstands.finish_self outcome
  · rw [hrest hsame, Option.or_none]
    exact h.finish_other hconsistent hcall hother hsame outcome

theorem get_eq_some {world : World} (h : Consistent world) {rpcId : String}
    {pending : PendingRpc} (hget : world.get rpcId = some pending) :
    ∃ call ∈ world.calls, call.pending = pending ∧ call.rpcId = rpcId ∧
      Stands world call none := by
  have hpending := List.mem_of_find?_eq_some hget
  have hid : pending.rpcId = rpcId := by simpa using List.find?_some hget
  obtain ⟨call, hcall, rfl⟩ := h.pendingRpc pending hpending
  obtain ⟨outcome, hstands⟩ := h.calls call hcall
  have hnone := hstands.eq_none hpending
  exact ⟨call, hcall, rfl, hid, hnone ▸ hstands⟩

theorem get_eq_none {world : World} {rpcId : String} (hget : world.get rpcId = none)
    {call : Call} (hid : call.rpcId = rpcId) : call.pending ∉ world.pendingRpc := by
  intro hpending
  have hne := List.find?_eq_none.mp hget _ hpending
  simp [Call.pending, hid] at hne

theorem onRpcReply_cases (parseJson : String → Except String Json) {world : World}
    (h : Consistent world) (correlationId : Option String) (content : String) :
    (onRpcReply parseJson world correlationId content = world ∧
      ∀ call : Call, messageCorrelationId correlationId = some call.rpcId →
        call.pending ∉ world.pendingRpc) ∨
    ∃ call ∈ world.calls, messageCorrelationId correlationId = some call.rpcId ∧
      Stands world call none ∧
      onRpcReply parseJson world correlationId content =
        finish world call (readReply parseJson content) := by
  unfold onRpcReply
  cases hid : messageCorrelationId correlationId with
  | none => exact .inl ⟨rfl, by simp⟩
  | some rpcId =>
      rw [Option.bind_some]
      cases hget : world.get rpcId with
      | none =>
          refine .inl ⟨rfl, ?_⟩
          intro call hcall
          exact get_eq_none hget (Option.some.inj hcall).symm
      | some pending =>
          obtain ⟨call, hcall, rfl, rfl, hstands⟩ := get_eq_some h hget
          exact .inr ⟨call, hcall, rfl, hstands, rfl⟩

theorem onTimeout_eq {world : World} (h : Consistent world) {timeout : Nat}
    {timer : Timer}
    (hfind : (world.timers.find? fun timer => decide (timer.timeout = timeout)) =
      some timer) :
    ∃ call ∈ world.calls, call.promise = timeout ∧ Stands world call none ∧
      onTimeout world timer =
        finish world call (.rejected ("RPC timeout for " ++ call.routingKey)) := by
  have htimer := List.mem_of_find?_eq_some hfind
  have htimeout : timer.timeout = timeout := by simpa using List.find?_some hfind
  obtain ⟨call, hcall, rfl⟩ := h.timers timer htimer
  obtain ⟨outcome, hstands⟩ := h.calls call hcall
  have hnone := hstands.timer.mp htimer
  exact ⟨call, hcall, htimeout, hnone ▸ hstands, rfl⟩

theorem rejectAll_eq (world : World) (pendings : List PendingRpc) :
    rejectAll world pendings =
      { world with
        timers := world.timers.filter fun timer =>
          decide (timer.timeout ∉ pendings.map PendingRpc.timeout)
        settlements := world.settlements ++ pendings.map fun pending =>
          (pending.promise, .rejected "Rabbit bus is shutting down") } := by
  induction pendings generalizing world with
  | nil => simp [rejectAll]
  | cons pending rest ih =>
      have htimer : ∀ timer : Timer,
          (decide (timer.timeout ∉ rest.map PendingRpc.timeout) &&
            decide (timer.timeout ≠ pending.timeout)) =
          decide (timer.timeout ∉ (pending :: rest).map PendingRpc.timeout) := by
        simp [Bool.and_comm]
      rw [rejectAll, ih]
      simp only [World.clearTimeout, World.settle, List.filter_filter, htimer,
        List.append_assoc, List.map_cons, List.singleton_append]

theorem calls_onModuleDestroy (world : World) :
    (onModuleDestroy world).calls = world.calls := by
  rw [onModuleDestroy, rejectAll_eq]

theorem pendingRpc_filter_promise {world : World} (h : Consistent world) {call : Call}
    (hcall : call ∈ world.calls) :
    (world.pendingRpc.filter fun pending => decide (pending.promise = call.promise)) =
      if call.pending ∈ world.pendingRpc then [call.pending] else [] := by
  have hsame : ∀ pending ∈ world.pendingRpc,
      decide (pending.promise = call.promise) = decide (pending = call.pending) := by
    intro pending hpending
    obtain ⟨other, hother, rfl⟩ := h.pendingRpc pending hpending
    rw [decide_eq_decide]
    constructor
    · intro hpromise
      rw [h.eq_of_promise hother hcall hpromise]
    · intro hpending
      exact congrArg PendingRpc.promise hpending
  rw [List.filter_congr hsame, List.filter_eq]
  split
  · rename_i hpending
    rw [List.count_eq_one_of_mem h.distinct hpending]
    rfl
  · rename_i hpending
    rw [List.count_eq_zero_of_not_mem hpending]
    rfl

theorem settlementsOf_onModuleDestroy {world : World} (h : Consistent world) {call : Call}
    (hcall : call ∈ world.calls) :
    (onModuleDestroy world).settlementsOf call.promise =
      world.settlementsOf call.promise ++
        if call.pending ∈ world.pendingRpc then
          [.rejected "Rabbit bus is shutting down"]
        else [] := by
  have hfilter := pendingRpc_filter_promise h hcall
  rw [onModuleDestroy, rejectAll_eq, World.settlementsOf, World.settlementsOf,
    List.filter_append, List.map_append, List.filter_map]
  change _ ++ List.map _ (List.map _ (world.pendingRpc.filter fun pending =>
    decide (pending.promise = call.promise))) = _
  rw [hfilter]
  split
  · rfl
  · rfl

theorem Stands.onModuleDestroy {world : World} (h : Consistent world) {call : Call}
    (hcall : call ∈ world.calls) {settled : Option Outcome}
    (hstands : Stands world call settled) :
    Stands (onModuleDestroy world) call
      (settled.or (some (.rejected "Rabbit bus is shutting down"))) := by
  have hsettlements := settlementsOf_onModuleDestroy h hcall
  rw [hstands.settlements] at hsettlements
  cases settled with
  | none =>
      have hpending := hstands.pending.mpr rfl
      rw [if_pos hpending] at hsettlements
      refine ⟨by simp [RabbitBus.onModuleDestroy], ?_, hsettlements⟩
      rw [RabbitBus.onModuleDestroy, rejectAll_eq]
      have htimeout : ∃ pending ∈ world.pendingRpc, pending.timeout = call.timer.timeout :=
        ⟨call.pending, hpending, rfl⟩
      simp [htimeout]
  | some outcome =>
      have hpending : call.pending ∉ world.pendingRpc := by simp [hstands.pending]
      have htimer : call.timer ∉ world.timers := by simp [hstands.timer]
      rw [if_neg hpending, List.append_nil] at hsettlements
      refine ⟨by simp [RabbitBus.onModuleDestroy], ?_, hsettlements⟩
      rw [RabbitBus.onModuleDestroy, rejectAll_eq]
      simp [htimer]

theorem Consistent.onModuleDestroy {world : World} (h : Consistent world) :
    Consistent (onModuleDestroy world) := by
  have hcalls := calls_onModuleDestroy world
  constructor
  · rw [hcalls]
    exact h.ids
  · rw [hcalls]
    exact h.promises
  · intro pending hpending
    cases hpending
  · exact List.nodup_nil
  · intro timer htimer
    rw [hcalls]
    rw [RabbitBus.onModuleDestroy, rejectAll_eq] at htimer
    exact h.timers timer (List.mem_of_mem_filter htimer)
  · intro settled hsettled
    rw [hcalls]
    rw [RabbitBus.onModuleDestroy, rejectAll_eq] at hsettled
    rcases List.mem_append.mp hsettled with hold | hnew
    · exact h.settlements settled hold
    · obtain ⟨pending, hpending, rfl⟩ := List.mem_map.mp hnew
      obtain ⟨call, hcall, rfl⟩ := h.pendingRpc pending hpending
      exact h.promise_lt hcall
  · intro call hcall
    rw [hcalls] at hcall
    obtain ⟨settled, hstands⟩ := h.calls call hcall
    exact ⟨_, hstands.onModuleDestroy h hcall⟩

/-- The world after a call with a new id and a new promise. -/
def World.made (world : World) (call : Call) : World :=
  { world with
    pendingRpc := world.pendingRpc ++ [call.pending]
    timers := world.timers ++ [call.timer]
    calls := world.calls ++ [call] }

theorem sendRpc_eq {world : World} (h : Consistent world) {routingKey rpcId : String}
    (hfresh : rpcId ∉ world.calls.map Call.rpcId) {call : Call}
    (hmade : callMade (world, .sendRpc routingKey rpcId) = some call) :
    call.rpcId = rpcId ∧ call.promise = world.calls.length ∧
      sendRpc world routingKey rpcId = world.made call := by
  rw [callMade, Option.ite_none_right_eq_some] at hmade
  obtain ⟨hready, hmade⟩ := hmade
  obtain rfl := Option.some.inj hmade
  have hkept : (world.pendingRpc.filter fun pending => decide (pending.rpcId ≠ rpcId)) =
      world.pendingRpc := by
    rw [List.filter_eq_self]
    intro pending hpending
    obtain ⟨call, hcall, rfl⟩ := h.pendingRpc pending hpending
    refine decide_eq_true ?_
    rintro rfl
    exact hfresh (List.mem_map_of_mem hcall)
  refine ⟨rfl, rfl, ?_⟩
  rw [sendRpc, if_pos hready]
  simp only [World.delete, hkept]
  rfl

theorem sendRpc_none {world : World} {routingKey rpcId : String}
    (hmade : callMade (world, .sendRpc routingKey rpcId) = none) :
    sendRpc world routingKey rpcId = world := by
  rw [callMade] at hmade
  rw [sendRpc]
  split at hmade
  · cases hmade
  · rename_i hready
    rw [if_neg hready]

theorem Stands.made_self {world : World} (h : Consistent world) {call : Call}
    (hpromise : call.promise = world.calls.length) : Stands (world.made call) call none where
  pending := by simp [World.made]
  timer := by simp [World.made]
  settlements := by
    have hnone : (world.settlements.filter fun settled =>
        decide (settled.1 = call.promise)) = [] := by
      rw [List.filter_eq_nil_iff]
      intro settled hsettled
      have hlt := h.settlements settled hsettled
      simp only [decide_eq_true_eq]
      omega
    change (world.settlements.filter _).map Prod.snd = _
    rw [hnone]
    rfl

theorem Stands.made_other {world : World} {call other : Call} {settled : Option Outcome}
    (hne : other.rpcId ≠ call.rpcId) (hstands : Stands world other settled) :
    Stands (world.made call) other settled where
  pending := by
    have hpending : other.pending ≠ call.pending :=
      fun hsame => hne (congrArg PendingRpc.rpcId hsame)
    rw [← hstands.pending]
    simp [World.made, hpending]
  timer := by
    have htimer : other.timer ≠ call.timer :=
      fun hsame => hne (congrArg Timer.rpcId hsame)
    rw [← hstands.timer]
    simp [World.made, htimer]
  settlements := hstands.settlements

theorem Consistent.made {world : World} (h : Consistent world) {call : Call}
    (hfresh : call.rpcId ∉ world.calls.map Call.rpcId)
    (hpromise : call.promise = world.calls.length) : Consistent (world.made call) := by
  have hother : ∀ other ∈ world.calls, other.rpcId ≠ call.rpcId := by
    intro other hmem hsame
    exact hfresh (hsame ▸ List.mem_map_of_mem hmem)
  constructor
  · simp only [World.made, List.map_append, List.map_cons, List.map_nil]
    rw [List.nodup_append]
    refine ⟨h.ids, List.nodup_singleton _, ?_⟩
    intro id hid new hnew hsame
    rw [List.mem_singleton.mp hnew] at hsame
    exact hfresh (hsame ▸ hid)
  · simp only [World.made, List.map_append, List.map_cons, List.map_nil, h.promises,
      List.length_append, List.length_singleton, List.range_succ, hpromise]
  · intro pending hpending
    rcases List.mem_append.mp hpending with hold | hnew
    · obtain ⟨other, hmem, rfl⟩ := h.pendingRpc pending hold
      exact ⟨other, List.mem_append_left _ hmem, rfl⟩
    · exact ⟨call, by simp [World.made], (List.mem_singleton.mp hnew).symm⟩
  · rw [World.made, List.nodup_append]
    refine ⟨h.distinct, List.nodup_singleton _, ?_⟩
    intro pending hpending new hnew hsame
    obtain ⟨other, hmem, rfl⟩ := h.pendingRpc pending hpending
    rw [List.mem_singleton.mp hnew] at hsame
    exact hother other hmem (congrArg PendingRpc.rpcId hsame)
  · intro timer htimer
    rcases List.mem_append.mp htimer with hold | hnew
    · obtain ⟨other, hmem, rfl⟩ := h.timers timer hold
      exact ⟨other, List.mem_append_left _ hmem, rfl⟩
    · exact ⟨call, by simp [World.made], (List.mem_singleton.mp hnew).symm⟩
  · intro settled hsettled
    have hlt := h.settlements settled hsettled
    simp only [World.made, List.length_append, List.length_singleton]
    omega
  · intro other hmem
    rcases List.mem_append.mp hmem with hold | hnew
    · obtain ⟨settled, hstands⟩ := h.calls other hold
      exact ⟨settled, hstands.made_other (hother other hold)⟩
    · rw [List.mem_singleton.mp hnew]
      exact ⟨none, Stands.made_self h hpromise⟩

/-- An event decides the open calls and makes at most one. -/
structure Advances (parseJson : String → Except String Json) (world : World)
    (event : Event) (next : World) : Prop where
  consistent : Consistent next
  calls : next.calls = world.calls ++ (callMade (world, event)).toList
  old : ∀ call ∈ world.calls, ∀ settled, Stands world call settled →
    Stands next call (settled.or (decides parseJson call event))
  new : ∀ call, callMade (world, event) = some call → Stands next call none

theorem connected_advances {world : World} (h : Consistent world) :
    Advances parseJson world .connected { world with ready := true } where
  consistent :=
    { h with
      calls := by
        intro call hcall
        obtain ⟨settled, hstands⟩ := h.calls call hcall
        exact ⟨settled, hstands.pending, hstands.timer, hstands.settlements⟩ }
  calls := by simp [callMade]
  old := by
    intro call hcall settled hstands
    rw [show decides parseJson call .connected = none from rfl, Option.or_none]
    exact ⟨hstands.pending, hstands.timer, hstands.settlements⟩
  new := by simp [callMade]

theorem sendRpc_advances {world : World} (h : Consistent world) {routingKey rpcId : String}
    (hfresh : rpcId ∉ world.calls.map Call.rpcId) :
    Advances parseJson world (.sendRpc routingKey rpcId)
      (sendRpc world routingKey rpcId) := by
  have hnone : ∀ call, decides parseJson call (.sendRpc routingKey rpcId) = none :=
    fun _ => rfl
  cases hmade : callMade (world, .sendRpc routingKey rpcId) with
  | none =>
      rw [sendRpc_none hmade]
      refine ⟨h, by simp [hmade], ?_, by simp [hmade]⟩
      intro call _ settled hstands
      rwa [hnone, Option.or_none]
  | some call =>
      obtain ⟨rfl, hpromise, hsend⟩ := sendRpc_eq h hfresh hmade
      rw [hsend]
      refine ⟨h.made hfresh hpromise, by rw [hmade]; rfl, ?_, ?_⟩
      · intro other hother settled hstands
        rw [hnone, Option.or_none]
        refine hstands.made_other ?_
        intro hsame
        exact hfresh (hsame ▸ List.mem_map_of_mem hother)
      · intro other hother
        obtain rfl := Option.some.inj (hmade.symm.trans hother)
        exact Stands.made_self h hpromise

theorem finish_advances {world : World} (h : Consistent world) {call : Call}
    (hcall : call ∈ world.calls) (hopen : Stands world call none) {event : Event}
    {outcome : Outcome} (hmade : callMade (world, event) = none)
    (hself : decides parseJson call event = some outcome)
    (hrest : ∀ other ∈ world.calls, other ≠ call → decides parseJson other event = none) :
    Advances parseJson world event (finish world call outcome) where
  consistent := h.finish hcall hopen outcome
  calls := by rw [hmade]; exact (List.append_nil _).symm
  old := by
    intro other hother settled hstands
    exact stands_finish h hcall hother hopen hstands (fun hsame => hsame ▸ hself)
      (hrest other hother)
  new := by simp [hmade]

theorem reply_advances (parseJson : String → Except String Json) {world : World}
    (h : Consistent world) (correlationId : Option String) (content : String) :
    Advances parseJson world (.reply correlationId content)
      (onRpcReply parseJson world correlationId content) := by
  rcases onRpcReply_cases parseJson h correlationId content with
    ⟨hsame, hclosed⟩ | ⟨call, hcall, hid, hopen, hfinish⟩
  · rw [hsame]
    refine ⟨h, by simp [callMade], ?_, by simp [callMade]⟩
    intro call _ settled hstands
    cases settled with
    | some outcome => exact hstands
    | none =>
        rw [decides, if_neg fun hid => hclosed call hid (hstands.pending.mpr rfl)]
        exact hstands
  · rw [hfinish]
    refine finish_advances h hcall hopen rfl (if_pos hid) ?_
    intro other hother hne
    refine if_neg ?_
    intro hsame
    rw [hid, Option.some.injEq] at hsame
    exact hne (h.eq_of_rpcId hother hcall hsame.symm)

theorem timeout_advances {world : World} (h : Consistent world) {timeout : Nat}
    {timer : Timer}
    (hfind : (world.timers.find? fun timer => decide (timer.timeout = timeout)) =
      some timer) :
    Advances parseJson world (.timeout timeout) (onTimeout world timer) := by
  obtain ⟨call, hcall, rfl, hopen, hfinish⟩ := onTimeout_eq h hfind
  rw [hfinish]
  refine finish_advances h hcall hopen rfl (if_pos rfl) ?_
  intro other hother hne
  refine if_neg ?_
  intro hsame
  exact hne (h.eq_of_promise hother hcall hsame.symm)

theorem shutdown_advances {world : World} (h : Consistent world) :
    Advances parseJson world .shutdown (onModuleDestroy world) where
  consistent := h.onModuleDestroy
  calls := by simp [callMade, calls_onModuleDestroy]
  old := fun _ hcall _ hstands => hstands.onModuleDestroy h hcall
  new := by simp [callMade]

theorem step_advances {world next : World} (h : Consistent world) {event : Event}
    (hstep : step parseJson world event = some next) :
    Advances parseJson world event next := by
  cases event with
  | connected =>
      obtain rfl := Option.some.inj hstep
      exact connected_advances h
  | sendRpc routingKey rpcId =>
      rw [step, Option.ite_none_left_eq_some] at hstep
      obtain ⟨hfresh, hnext⟩ := hstep
      obtain rfl := Option.some.inj hnext
      exact sendRpc_advances h hfresh
  | reply correlationId content =>
      obtain rfl := Option.some.inj hstep
      exact reply_advances parseJson h correlationId content
  | timeout timeout =>
      obtain ⟨timer, hfind, rfl⟩ := Option.map_eq_some_iff.mp hstep
      exact timeout_advances h hfind
  | shutdown =>
      obtain rfl := Option.some.inj hstep
      exact shutdown_advances h

end Steps

end Modularis.Shared.RabbitBus
