import Modularis.Shared.RabbitBus

namespace Modularis.Shared.RpcReplies

open Modularis.Foundation
open Modularis.Shared.RabbitBus

section Runs

variable {parseJson : String → Except String Json}

theorem consistent_of_run {trace : List (World × Event)} {world : World}
    (hrun : Run parseJson trace world) : Consistent world :=
  hrun.reachable.invariant consistent_init
    fun _ _ _ h hstep => (step_advances h hstep).consistent

theorem stands_of_run {start world : World} {trace : List (World × Event)} {call : Call}
    (hrun : StepSystem.Run (step parseJson) start trace world) (h : Consistent start)
    (hcall : call ∈ start.calls) (hopen : Stands start call none) :
    Consistent world ∧ call ∈ world.calls ∧
      Stands world call ((trace.map Prod.snd).findSome? (decides parseJson call)) := by
  induction hrun with
  | nil => exact ⟨h, hcall, hopen⟩
  | snoc _ hstep ih =>
      obtain ⟨hconsistent, hmem, hstands⟩ := ih
      have hadvances := step_advances hconsistent hstep
      refine ⟨hadvances.consistent, ?_, ?_⟩
      · rw [hadvances.calls]
        exact List.mem_append_left _ hmem
      · have hnext := hadvances.old call hmem _ hstands
        simpa using hnext

theorem made_of_mem {trace : List (World × Event)} {world : World}
    (hrun : Run parseJson trace world) {call : Call} (hcall : call ∈ world.calls) :
    ∃ before sent after, trace = before ++ sent :: after ∧ callMade sent = some call := by
  induction hrun with
  | nil => cases hcall
  | @snoc trace world next event hbefore hstep ih =>
      rw [(step_advances (consistent_of_run hbefore) hstep).calls] at hcall
      rcases List.mem_append.mp hcall with hold | hnew
      · obtain ⟨before, sent, after, rfl, hsent⟩ := ih hold
        exact ⟨before, sent, after ++ [(world, event)], by simp, hsent⟩
      · exact ⟨trace, (world, event), [], rfl, Option.mem_toList.mp hnew⟩

/-- `between` are the steps from the one that makes `call` to `cause`. -/
def Since (trace : List (World × Event)) (call : Call)
    (between : List (World × Event)) (cause : World × Event) : Prop :=
  ∃ before sent after, trace = before ++ sent :: (between ++ cause :: after) ∧
    callMade sent = some call

theorem stands_of_call {trace : List (World × Event)} {world : World}
    (hrun : Run parseJson trace world) {call : Call} (hcall : call ∈ world.calls) :
    Stands world call none ∨
      ∃ outcome between cause, Stands world call (some outcome) ∧
        Since trace call between cause ∧ decides parseJson call cause.2 = some outcome ∧
        ∀ p ∈ between, decides parseJson call p.2 = none := by
  obtain ⟨before, ⟨start, event⟩, after, rfl, hsent⟩ := made_of_mem hrun hcall
  obtain ⟨next, hbefore, hstep, hafter⟩ := StepSystem.Run.split hrun rfl
  have hadvances := step_advances (consistent_of_run hbefore) hstep
  have hmem : call ∈ next.calls := by simp [hadvances.calls, hsent]
  obtain ⟨_, _, hstands⟩ :=
    stands_of_run hafter hadvances.consistent hmem (hadvances.new call hsent)
  rw [List.findSome?_map] at hstands
  cases hfind : after.findSome? (decides parseJson call ∘ Prod.snd) with
  | none =>
      rw [hfind] at hstands
      exact .inl hstands
  | some outcome =>
      rw [hfind] at hstands
      obtain ⟨between, cause, rest, rfl, hcause, hbetween⟩ :=
        List.findSome?_eq_some_iff.mp hfind
      exact .inr ⟨outcome, between, cause, hstands,
        ⟨before, (start, event), rest, rfl, hsent⟩, hcause, hbetween⟩

/-- A reply with the id of a call and a valid response. -/
def Answers (parseJson : String → Except String Json) (call : Call) (response : Json) :
    Event → Prop
  | .reply correlationId content =>
      messageCorrelationId correlationId = some call.rpcId ∧
        ∃ parsed, parseJson content = .ok parsed ∧
          normalizeRpcResponse parsed = .ok response
  | _ => False

/-- An invalid reply with the id of a call, its timeout or a shutdown. -/
def Refuses (parseJson : String → Except String Json) (call : Call) (error : String) :
    Event → Prop
  | .reply correlationId content =>
      messageCorrelationId correlationId = some call.rpcId ∧
        (parseJson content = .error error ∨
          ∃ parsed, parseJson content = .ok parsed ∧
            normalizeRpcResponse parsed = .error error)
  | .timeout timeout =>
      timeout = call.promise ∧ error = "RPC timeout for " ++ call.routingKey
  | .shutdown => error = "Rabbit bus is shutting down"
  | _ => False

theorem readReply_resolved {content : String} {response : Json}
    (h : readReply parseJson content = .resolved response) :
    ∃ parsed, parseJson content = .ok parsed ∧
      normalizeRpcResponse parsed = .ok response := by
  unfold readReply at h
  split at h
  · cases h
  · rename_i parsed hparsed
    split at h
    · cases h
    · rename_i hresponse
      obtain rfl := Outcome.resolved.inj h
      exact ⟨parsed, hparsed, hresponse⟩

theorem readReply_rejected {content error : String}
    (h : readReply parseJson content = .rejected error) :
    parseJson content = .error error ∨
      ∃ parsed, parseJson content = .ok parsed ∧
        normalizeRpcResponse parsed = .error error := by
  unfold readReply at h
  split at h
  · rename_i hparsed
    obtain rfl := Outcome.rejected.inj h
    exact .inl hparsed
  · rename_i parsed hparsed
    split at h
    · rename_i herror
      obtain rfl := Outcome.rejected.inj h
      exact .inr ⟨parsed, hparsed, herror⟩
    · cases h

theorem answers_of_decides {call : Call} {event : Event} {response : Json}
    (h : decides parseJson call event = some (.resolved response)) :
    Answers parseJson call response event := by
  cases event with
  | reply correlationId content =>
      rw [decides, Option.ite_none_right_eq_some] at h
      exact ⟨h.1, readReply_resolved (Option.some.inj h.2)⟩
  | timeout timeout =>
      rw [decides, Option.ite_none_right_eq_some] at h
      cases h.2
  | shutdown => cases h
  | connected => cases h
  | sendRpc routingKey rpcId => cases h

theorem refuses_of_decides {call : Call} {event : Event} {error : String}
    (h : decides parseJson call event = some (.rejected error)) :
    Refuses parseJson call error event := by
  cases event with
  | reply correlationId content =>
      rw [decides, Option.ite_none_right_eq_some] at h
      exact ⟨h.1, readReply_rejected (Option.some.inj h.2)⟩
  | timeout timeout =>
      rw [decides, Option.ite_none_right_eq_some] at h
      obtain ⟨htimeout, herror⟩ := h
      cases herror
      exact ⟨htimeout, rfl⟩
  | shutdown =>
      cases h
      rfl
  | connected => cases h
  | sendRpc routingKey rpcId => cases h

end Runs

section Matching

variable {parseJson : String → Except String Json}

/-- A reply settles its own call at most, and the entries are those of the calls
that are not settled. -/
structure Matched (parseJson : String → Except String Json)
    (trace : List (World × Event)) (world : World) : Prop where
  once : ∀ promise, (world.settlementsOf promise).length ≤ 1
  resolves : ∀ call ∈ world.calls, ∀ response,
    .resolved response ∈ world.settlementsOf call.promise →
      ∃ between reply, Since trace call between reply ∧
        Answers parseJson call response reply.2 ∧
        ∀ p ∈ between, p.2 ≠ .timeout call.promise ∧ p.2 ≠ .shutdown
  rejects : ∀ call ∈ world.calls, ∀ error,
    .rejected error ∈ world.settlementsOf call.promise →
      ∃ between cause, Since trace call between cause ∧
        Refuses parseJson call error cause.2
  others : ∀ p ∈ trace, ∀ correlationId content, p.2 = .reply correlationId content →
    ∃ next, step parseJson p.1 p.2 = some next ∧
      ∀ call ∈ p.1.calls, messageCorrelationId correlationId ≠ some call.rpcId →
        next.settlementsOf call.promise = p.1.settlementsOf call.promise ∧
        (call.pending ∈ next.pendingRpc ↔ call.pending ∈ p.1.pendingRpc) ∧
        (call.timer ∈ next.timers ↔ call.timer ∈ p.1.timers)
  distinct : (world.pendingRpc.map PendingRpc.rpcId).Nodup
  pendingRpc : ∀ rpcId, rpcId ∈ world.pendingRpc.map PendingRpc.rpcId ↔
    ∃ call ∈ world.calls, call.rpcId = rpcId ∧ world.settlementsOf call.promise = []

theorem reply_keeps_others {world : World} (h : Consistent world)
    {correlationId : Option String} {content : String} {call : Call}
    (hcall : call ∈ world.calls)
    (hid : messageCorrelationId correlationId ≠ some call.rpcId) :
    (onRpcReply parseJson world correlationId content).settlementsOf call.promise =
        world.settlementsOf call.promise ∧
      (call.pending ∈ (onRpcReply parseJson world correlationId content).pendingRpc ↔
        call.pending ∈ world.pendingRpc) ∧
      (call.timer ∈ (onRpcReply parseJson world correlationId content).timers ↔
        call.timer ∈ world.timers) := by
  obtain ⟨settled, hstands⟩ := h.calls call hcall
  have hnext := (reply_advances parseJson h correlationId content).old
    call hcall settled hstands
  rw [decides, if_neg hid, Option.or_none] at hnext
  exact ⟨hnext.settlements.trans hstands.settlements.symm,
    hnext.pending.trans hstands.pending.symm, hnext.timer.trans hstands.timer.symm⟩

theorem settled_of_run {trace : List (World × Event)} {world : World}
    (hrun : Run parseJson trace world) {call : Call} (hcall : call ∈ world.calls)
    {outcome : Outcome} (hmem : outcome ∈ world.settlementsOf call.promise) :
    ∃ between cause, Since trace call between cause ∧
      decides parseJson call cause.2 = some outcome ∧
      ∀ p ∈ between, decides parseJson call p.2 = none := by
  rcases stands_of_call hrun hcall with hopen | ⟨settled, between, cause, hstands, hsince⟩
  · rw [hopen.settlements] at hmem
    cases hmem
  · rw [hstands.settlements] at hmem
    obtain rfl := List.mem_singleton.mp hmem
    exact ⟨between, cause, hsince⟩

theorem ne_of_decides_none {call : Call} {event : Event}
    (h : decides parseJson call event = none) :
    event ≠ .timeout call.promise ∧ event ≠ .shutdown := by
  constructor
  · rintro rfl
    simp [decides] at h
  · rintro rfl
    cases h

/-- Every run of calls, replies, timeouts and shutdowns matches its replies. -/
theorem replies_matched {trace : List (World × Event)} {world : World}
    (hrun : Run parseJson trace world) : Matched parseJson trace world := by
  have h := consistent_of_run hrun
  constructor
  · exact h.settlements_le
  · intro call hcall response hmem
    obtain ⟨between, cause, hsince, hcause, hbetween⟩ := settled_of_run hrun hcall hmem
    refine ⟨between, cause, hsince, answers_of_decides hcause, ?_⟩
    intro p hp
    exact ne_of_decides_none (hbetween p hp)
  · intro call hcall error hmem
    obtain ⟨between, cause, hsince, hcause, _⟩ := settled_of_run hrun hcall hmem
    exact ⟨between, cause, hsince, refuses_of_decides hcause⟩
  · rintro ⟨passed, event⟩ hp correlationId content rfl
    obtain ⟨before, after, rfl⟩ := List.append_of_mem hp
    obtain ⟨next, hbefore, hstep, _⟩ := StepSystem.Run.split hrun rfl
    refine ⟨next, hstep, ?_⟩
    obtain rfl := Option.some.inj hstep
    intro call hcall hid
    exact reply_keeps_others (consistent_of_run hbefore) hcall hid
  · exact h.nodup_rpcIds
  · exact h.mem_rpcIds_iff

section Samples

def sampleResponse : Json := .object [("success", .bool true), ("data", .null)]

/-- It knows one text only. -/
def parseSample (rawMessage : String) : Except String Json :=
  if rawMessage = "response" then .ok sampleResponse else .error "Unexpected token"

/-- The first call is answered twice, the second one late, the third one badly and
the last one not at all. -/
def sampleEvents : List Event :=
  [.connected, .sendRpc "identity.user.create" "a", .sendRpc "identity.user.create" "b",
    .sendRpc "payment.checkout.create" "c", .reply (some "a") "response",
    .timeout 1, .reply (some "b") "response", .reply (some "a") "response",
    .reply (some "c") "text", .sendRpc "payment.checkout.create" "d", .shutdown]

/-- A call after the loop of `onModuleDestroy`, while the channels close. -/
def lateEvents : List Event :=
  [.connected, .shutdown, .sendRpc "identity.user.create" "a",
    .reply (some "a") "response"]

/-- A call whose reply comes late. -/
def lateCall : Call where
  promise := 0
  rpcId := "a"
  routingKey := "identity.user.create"

theorem replay_sampleEvents :
    (StepSystem.replay (step parseSample) World.init sampleEvents).map
      (fun world => [0, 1, 2, 3].map world.settlementsOf) =
    some [[.resolved sampleResponse], [.rejected "RPC timeout for identity.user.create"],
      [.rejected "Unexpected token"], [.rejected "Rabbit bus is shutting down"]] := by
  rfl

theorem replay_lateEvents :
    (StepSystem.replay (step parseSample) World.init lateEvents).map
      (fun world => (world.calls, world.settlementsOf 0)) =
    some ([lateCall], [.resolved sampleResponse]) := by
  rfl

theorem replies_matched_sample :
    ∃ world, Run parseSample
        (StepSystem.traceOf (step parseSample) World.init sampleEvents) world ∧
      world.settlementsOf 0 = [.resolved sampleResponse] ∧
      Matched parseSample
        (StepSystem.traceOf (step parseSample) World.init sampleEvents) world := by
  obtain ⟨world, hreplay, hsettled⟩ := Option.map_eq_some_iff.mp replay_sampleEvents
  have hrun := StepSystem.run_of_replay hreplay
  exact ⟨world, hrun, (List.cons.inj hsettled).1, replies_matched hrun⟩

/-- The call is answered after the shutdown that it follows. -/
theorem resolved_after_shutdown :
    ∃ world, Run parseSample
        (StepSystem.traceOf (step parseSample) World.init lateEvents) world ∧
      lateCall ∈ world.calls ∧
      .resolved sampleResponse ∈ world.settlementsOf lateCall.promise ∧
      ¬ ∃ before reply after,
        StepSystem.traceOf (step parseSample) World.init lateEvents =
          before ++ reply :: after ∧
        Answers parseSample lateCall sampleResponse reply.2 ∧
        ∀ p ∈ before, p.2 ≠ .shutdown := by
  obtain ⟨world, hreplay, hsettled⟩ := Option.map_eq_some_iff.mp replay_lateEvents
  obtain ⟨hcalls, hresolved⟩ := Prod.mk.inj hsettled
  refine ⟨world, StepSystem.run_of_replay hreplay, by simp [hcalls], ?_, ?_⟩
  · rw [show lateCall.promise = 0 from rfl, hresolved]
    exact List.mem_singleton_self _
  · rintro ⟨before, reply, after, htrace, hanswers, hbefore⟩
    have hevents := congrArg (List.map Prod.snd) htrace
    rw [List.map_append, List.map_cons] at hevents
    change lateEvents = _ at hevents
    rcases before with _ | ⟨first, _ | ⟨second, rest⟩⟩
    · rw [← (List.cons.inj hevents).1] at hanswers
      exact hanswers
    · rw [← (List.cons.inj (List.cons.inj hevents).2).1] at hanswers
      exact hanswers
    · exact hbefore second (by simp) (List.cons.inj (List.cons.inj hevents).2).1.symm

end Samples

end Matching

end Modularis.Shared.RpcReplies
