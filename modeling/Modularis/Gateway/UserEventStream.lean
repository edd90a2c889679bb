import Mathlib.Data.List.Nodup
import Mathlib.Data.List.Range
import Modularis.Shared.RabbitBus
import Modularis.Shared.Text

namespace Modularis.Gateway.UserEventStream

open Modularis.Shared.RabbitBus
open Modularis.Shared.Text

section Service

/-- What subscribers are sent. -/
structure StreamEvent where
  id : String
  type : String
  occurredAt : String
  payload : Json

/-- The map of the streams, which are numbered as they are made, with the streams
behind the observables and the subscriptions so far.  `deliveries`, the events with
the subscriptions that they went to, are a history. -/
structure UserEventStreamService where
  streams : List (String × Nat)
  observables : List Nat
  subscriptions : List Nat
  deliveries : List (Nat × StreamEvent)

/-- The stream of a user, which is made when it is first asked for. -/
def ensureStream (service : UserEventStreamService) (userId : String) :
    Nat × UserEventStreamService :=
  match service.streams.lookup userId with
  | some existingStream => (existingStream, service)
  | none =>
      (service.streams.length,
        { service with
          streams := service.streams ++ [(userId, service.streams.length)] })

/-- `stream` hands out one more observable of the user's stream. -/
def UserEventStreamService.stream (service : UserEventStreamService) (userId : String) :
    UserEventStreamService :=
  let (stream, service) := ensureStream service userId
  { service with observables := service.observables ++ [stream] }

/-- There is no observable beyond those that were given out. -/
def UserEventStreamService.subscribe (service : UserEventStreamService)
    (observable : Nat) : UserEventStreamService :=
  match service.observables[observable]? with
  | some stream => { service with subscriptions := service.subscriptions ++ [stream] }
  | none => service

/-- Who listens to a stream. -/
def UserEventStreamService.subscribers (service : UserEventStreamService)
    (stream : Nat) : List Nat :=
  (List.range service.subscriptions.length).filter fun subscription =>
    service.subscriptions[subscription]? = some stream

/-- `next` of a `Subject`. -/
def UserEventStreamService.next (service : UserEventStreamService) (stream : Nat)
    (event : StreamEvent) : UserEventStreamService :=
  { service with
    deliveries := service.deliveries ++
      (service.subscribers stream).map fun subscription => (subscription, event) }

/-- An event goes to the stream of its user, and to no other. -/
def UserEventStreamService.publish (service : UserEventStreamService) (userId : String)
    (event : StreamEvent) : UserEventStreamService :=
  let (stream, service) := ensureStream service userId
  service.next stream event

/-- What a subscription has received, oldest first. -/
def UserEventStreamService.received (service : UserEventStreamService)
    (subscription : Nat) : List StreamEvent :=
  (service.deliveries.filter fun delivery => delivery.1 = subscription).map Prod.snd

end Service

section OnEvent

/-- The fields of a `MessageEnvelope` that are read. -/
structure Envelope where
  messageId : String
  correlationId : String
  occurredAt : String
  type : String
  eventType : Option Json
  payload : Json

/-- The member, if it is a string. -/
def asString : Option Json → Option String
  | some (.string value) => some value
  | _ => none

/-- The envelope that a value is, if it is one. -/
def isMessageEnvelopeRecord (value : Json) : Option Envelope := do
  guard (isRecord value)
  let messageId ← asString (value.get "messageId")
  let correlationId ← asString (value.get "correlationId")
  let occurredAt ← asString (value.get "occurredAt")
  let type ← asString (value.get "type")
  let payload ← (value.get "payload").filter isRecord
  some
    { messageId := messageId
      correlationId := correlationId
      occurredAt := occurredAt
      type := type
      eventType := value.get "eventType"
      payload := payload }

/-- `JSON.parse` of the bytes of a message. -/
abbrev JsonParser := List UInt8 → Except String Json

/-- The message as an envelope, or the error that `nack`s it. -/
def parseEventEnvelope (parseJson : JsonParser) (content : List UInt8) :
    Except String Envelope := do
  let parsed ← parseJson content
  match isMessageEnvelopeRecord parsed with
  | some envelope => .ok envelope
  | none => .error "Invalid event envelope payload"

mutual

/-- A template can show a value: an object with an own property `toString`, which
is no function, has no text, and an array has one if its items have. -/
def hasText : Json → Bool
  | .array items => haveText items
  | .object members => (members.lookup "toString").isNone
  | _ => true

/-- All items can be written. -/
def haveText : List Json → Bool
  | [] => true
  | item :: items => hasText item && haveText items

end

/-- The text of the debug line, `eventType ?? type`, can be made. -/
def Envelope.isShown (envelope : Envelope) : Bool :=
  match envelope.eventType with
  | none => true
  | some eventType => hasText eventType

/-- The debug line, which throws when a value cannot be made a string. -/
def debug (envelope : Envelope) : Except String Unit :=
  if envelope.isShown then .ok ()
  else .error "Cannot convert object to primitive value"

/-- The user of an event of one of the two types, if the payload names one. -/
def extractUserId (envelope : Envelope) : Option String :=
  if envelope.type = "payment.status-updated" ∧
      isString (envelope.payload.get "userId") then
    asString (envelope.payload.get "userId")
  else if envelope.type = "user.premium-updated" ∧
      isString (envelope.payload.get "id") then
    asString (envelope.payload.get "id")
  else none

/-- What is published of an envelope. -/
def Envelope.event (envelope : Envelope) : StreamEvent where
  id := envelope.messageId
  type := envelope.type
  occurredAt := envelope.occurredAt
  payload := envelope.payload

/-- What the body of the `try` publishes, and to whom.  The empty id is none. -/
def readEvent (parseJson : JsonParser) (content : List UInt8) :
    Except String (Option (String × StreamEvent)) := do
  let envelope ← parseEventEnvelope parseJson content
  debug envelope
  match extractUserId envelope with
  | some userId =>
      if userId ≠ "" then .ok (some (userId, envelope.event)) else .ok none
  | none => .ok none

/-- A delivery of the queue. -/
structure Message where
  deliveryTag : Nat
  content : List UInt8
deriving DecidableEq, Repr

/-- What the consumer answers to a delivery. -/
inductive Settlement where
  | ack
  | nack (allUpTo requeue : Bool)
deriving DecidableEq, Repr

/-- `settlements`, what the channel was told about each delivery, are a history. -/
structure World where
  service : UserEventStreamService
  settlements : List (Nat × Settlement)

/-- Nobody listens. -/
def World.init : World where
  service :=
    { streams := []
      observables := []
      subscriptions := []
      deliveries := [] }
  settlements := []

/-- A delivery is answered. -/
def World.settle (world : World) (message : Message) (settlement : Settlement) : World :=
  { world with settlements := world.settlements ++ [(message.deliveryTag, settlement)] }

/-- `none` is the message of a consumer that the broker has cancelled. -/
def onEvent (parseJson : JsonParser) (world : World) : Option Message → World
  | none => world
  | some message =>
      match readEvent parseJson message.content with
      | .ok (some (userId, event)) =>
          { world with service := world.service.publish userId event }.settle message .ack
      | .ok none => world.settle message .ack
      | .error _ => world.settle message (.nack false false)

/-- A client asks for a stream or subscribes to it, or the queue delivers. -/
inductive Event where
  | stream (userId : String)
  | subscribe (observable : Nat)
  | message (delivery : Option Message)
deriving DecidableEq, Repr

def step (parseJson : JsonParser) (world : World) : Event → World
  | .stream userId => { world with service := world.service.stream userId }
  | .subscribe observable => { world with service := world.service.subscribe observable }
  | .message delivery => onEvent parseJson world delivery

/-- The world after some events. -/
def run (parseJson : JsonParser) (events : List Event) : World :=
  events.foldl (step parseJson) World.init

end OnEvent

section Purpose

/-- The user of a call of `stream`. -/
def Event.streamCall : Event → Option String
  | .stream userId => some userId
  | _ => none

/-- The message that arrives by an event. -/
def Event.arrival : Event → Option Message
  | .message delivery => delivery
  | _ => none

/-- The users that streams were asked for: the owners of the observables. -/
def streamCalls (events : List Event) : List String := events.filterMap Event.streamCall

/-- The messages in the order of their arrival. -/
def arrivals (events : List Event) : List Message := events.filterMap Event.arrival

/-- What has arrived, oldest first. -/
def contents (events : List Event) : List (List UInt8) :=
  (arrivals events).map Message.content

/-- An event that belongs to a user. -/
def Envelope.BelongsTo (userId : String) (envelope : Envelope) : Prop :=
  envelope.type = "payment.status-updated" ∧
    asString (envelope.payload.get "userId") = some userId ∨
  envelope.type = "user.premium-updated" ∧
    asString (envelope.payload.get "id") = some userId

instance (userId : String) (envelope : Envelope) : Decidable (envelope.BelongsTo userId) :=
  inferInstanceAs (Decidable (_ ∨ _))

/-- The well-formed envelope that a message carries. -/
def envelopeOf (parseJson : JsonParser) (content : List UInt8) : Option Envelope :=
  (parseEventEnvelope parseJson content).toOption

/-- The event of a message for a user. -/
def eventFor (parseJson : JsonParser) (userId : String) (content : List UInt8) :
    Option StreamEvent :=
  ((envelopeOf parseJson content).filter fun envelope =>
    envelope.BelongsTo userId).map Envelope.event

/-- The debug line of a message can be made. -/
def isShown (parseJson : JsonParser) (content : List UInt8) : Bool :=
  (envelopeOf parseJson content).all Envelope.isShown

end Purpose

section Streams

variable {service : UserEventStreamService} {userId other : String} {stream : Nat}

/-- No two users have one stream. -/
structure Separate (service : UserEventStreamService) : Prop where
  made : ∀ userId stream, service.streams.lookup userId = some stream →
    stream < service.streams.length
  distinct : ∀ userId other stream, service.streams.lookup userId = some stream →
    service.streams.lookup other = some stream → userId = other

/-- Each observable is the stream of the user that it was asked for. -/
def Owned (calls : List String) (service : UserEventStreamService) : Prop :=
  List.Forall₂ (fun userId stream => service.streams.lookup userId = some stream) calls
    service.observables

/-- The stream of a user and a subscription to it. -/
structure Subscribed (service : UserEventStreamService) (userId : String)
    (subscription stream : Nat) : Prop where
  owned : service.streams.lookup userId = some stream
  taken : service.subscriptions[subscription]? = some stream

theorem ensureStream_kept (service : UserEventStreamService) (userId : String) :
    (ensureStream service userId).2.observables = service.observables ∧
    (ensureStream service userId).2.subscriptions = service.subscriptions ∧
    (ensureStream service userId).2.deliveries = service.deliveries := by
  unfold ensureStream
  split <;> exact ⟨rfl, rfl, rfl⟩

theorem lookup_ensureStream (service : UserEventStreamService) (userId other : String) :
    (ensureStream service userId).2.streams.lookup other =
      if other = userId then some (ensureStream service userId).1
      else service.streams.lookup other := by
  unfold ensureStream
  split
  · rename_i hstream
    split
    · rename_i heq
      rw [heq, hstream]
    · rfl
  · rename_i hnone
    rw [List.lookup_append]
    split
    · rename_i heq
      simp [heq, hnone]
    · rename_i hne
      simp [List.lookup_cons, beq_eq_false_iff_ne.mpr hne]

theorem lookup_ensureStream_of_lookup (h : service.streams.lookup other = some stream) :
    (ensureStream service userId).2.streams.lookup other = some stream := by
  rw [lookup_ensureStream]
  split
  · rename_i heq
    rw [heq] at h
    simp [ensureStream, h]
  · exact h

theorem ensureStream_new (hseparate : Separate service)
    (h : service.streams.lookup other = some (ensureStream service userId).1) :
    other = userId := by
  cases hstream : service.streams.lookup userId with
  | some stream =>
      rw [ensureStream, hstream] at h
      exact hseparate.distinct _ _ _ h hstream
  | none =>
      rw [ensureStream, hstream] at h
      exact absurd (hseparate.made _ _ h) (lt_irrefl _)

theorem Separate.ensureStream (hseparate : Separate service) (userId : String) :
    Separate (ensureStream service userId).2 := by
  refine ⟨fun other stream h => ?_, fun u v stream hu hv => ?_⟩
  · cases hstream : service.streams.lookup userId with
    | some existingStream =>
        simp only [UserEventStream.ensureStream, hstream] at h ⊢
        exact hseparate.made _ _ h
    | none =>
        rw [lookup_ensureStream] at h
        simp only [UserEventStream.ensureStream, hstream, List.length_append,
          List.length_singleton] at h ⊢
        split at h
        · simp only [Option.some.injEq] at h
          omega
        · exact Nat.lt_succ_of_lt (hseparate.made _ _ h)
  · rw [lookup_ensureStream] at hu hv
    split at hu <;> split at hv
    · simp_all
    · rename_i heq _
      exact heq.trans (ensureStream_new hseparate (hv.trans hu.symm)).symm
    · rename_i _ heq
      exact (ensureStream_new hseparate (hu.trans hv.symm)).trans heq.symm
    · exact hseparate.distinct _ _ _ hu hv

theorem filter_subscribers {subscription : Nat} (service : UserEventStreamService)
    (other : Nat) (h : service.subscriptions[subscription]? = some stream) :
    (service.subscribers other).filter (· = subscription) =
      if other = stream then [subscription] else [] := by
  have hmem : subscription ∈ service.subscribers other ↔ other = stream := by
    have hlt := (List.getElem?_eq_some_iff.mp h).1
    rw [UserEventStreamService.subscribers, List.mem_filter, List.mem_range, h]
    simp [hlt, eq_comm]
  have hnodup : (service.subscribers other).Nodup := List.nodup_range.filter _
  rw [List.filter_eq]
  split
  · rename_i heq
    rw [List.count_eq_one_of_mem hnodup (hmem.mpr heq)]
    rfl
  · rename_i hne
    rw [List.count_eq_zero.mpr fun h => hne (hmem.mp h)]
    rfl

theorem received_next {subscription : Nat} (other : Nat) (event : StreamEvent)
    (h : service.subscriptions[subscription]? = some stream) :
    (service.next other event).received subscription =
      service.received subscription ++ if other = stream then [event] else [] := by
  have hfilter := filter_subscribers service other h
  rw [UserEventStreamService.received, UserEventStreamService.next, List.filter_append,
    List.map_append, List.filter_map, UserEventStreamService.received]
  congr 1
  simp only [Function.comp_def, hfilter, List.map_map]
  split <;> rfl

theorem received_publish {subscription : Nat} (hseparate : Separate service)
    (hsubscribed : Subscribed service userId subscription stream) (event : StreamEvent) :
    (service.publish other event).received subscription =
      service.received subscription ++ if other = userId then [event] else [] := by
  have hkept := ensureStream_kept service other
  have htaken : (ensureStream service other).2.subscriptions[subscription]? =
      some stream := by
    rw [hkept.2.1]
    exact hsubscribed.taken
  have hreceived : (ensureStream service other).2.received subscription =
      service.received subscription := by
    rw [UserEventStreamService.received, hkept.2.2, UserEventStreamService.received]
  have hiff : (ensureStream service other).1 = stream ↔ other = userId := by
    constructor
    · intro heq
      refine (ensureStream_new hseparate ?_).symm
      rw [heq]
      exact hsubscribed.owned
    · rintro rfl
      simp [ensureStream, hsubscribed.owned]
  rw [UserEventStreamService.publish]
  simp only [received_next _ _ htaken, hreceived, hiff]

end Streams

section Runs

variable {parseJson : JsonParser} {service : UserEventStreamService} {world : World}
  {userId : String} {subscription stream : Nat}

/-- What a message makes a user receive. -/
def published (parseJson : JsonParser) (userId : String) (content : List UInt8) :
    Option StreamEvent :=
  match readEvent parseJson content with
  | .ok (some (owner, event)) => if owner = userId then some event else none
  | _ => none

theorem Subscribed.ensureStream (hsubscribed : Subscribed service userId subscription stream)
    (other : String) :
    Subscribed (ensureStream service other).2 userId subscription stream := by
  refine ⟨lookup_ensureStream_of_lookup hsubscribed.owned, ?_⟩
  rw [(ensureStream_kept service other).2.1]
  exact hsubscribed.taken

theorem Subscribed.subscribe (hsubscribed : Subscribed service userId subscription stream)
    (observable : Nat) :
    Subscribed (service.subscribe observable) userId subscription stream := by
  unfold UserEventStreamService.subscribe
  split
  · refine ⟨hsubscribed.owned, ?_⟩
    have hlt := (List.getElem?_eq_some_iff.mp hsubscribed.taken).1
    rw [List.getElem?_append_left hlt]
    exact hsubscribed.taken
  · exact hsubscribed

theorem subscribe_kept (service : UserEventStreamService) (observable : Nat) :
    (service.subscribe observable).streams = service.streams ∧
    (service.subscribe observable).observables = service.observables ∧
    (service.subscribe observable).deliveries = service.deliveries := by
  unfold UserEventStreamService.subscribe
  split <;> exact ⟨rfl, rfl, rfl⟩

theorem service_onEvent (parseJson : JsonParser) (world : World) (message : Message) :
    (∃ owner event, readEvent parseJson message.content = .ok (some (owner, event)) ∧
      (onEvent parseJson world (some message)).service =
        world.service.publish owner event) ∨
    ((∀ owner event, readEvent parseJson message.content ≠ .ok (some (owner, event))) ∧
      (onEvent parseJson world (some message)).service = world.service) := by
  simp only [onEvent]
  cases hread : readEvent parseJson message.content with
  | error error => exact .inr ⟨by simp, rfl⟩
  | ok route =>
      rcases route with _ | ⟨owner, event⟩
      · exact .inr ⟨by simp, rfl⟩
      · exact .inl ⟨owner, event, rfl, rfl⟩

theorem Separate.step (hseparate : Separate world.service) (parseJson : JsonParser)
    (event : Event) : Separate (step parseJson world event).service := by
  cases event with
  | stream userId =>
      have hmade := hseparate.ensureStream userId
      exact ⟨hmade.made, hmade.distinct⟩
  | subscribe observable =>
      have hkept := (subscribe_kept world.service observable).1
      constructor
      · simpa only [UserEventStream.step, hkept] using hseparate.made
      · simpa only [UserEventStream.step, hkept] using hseparate.distinct
  | message delivery =>
      rcases delivery with _ | message
      · exact hseparate
      · rcases service_onEvent parseJson world message with
          ⟨owner, event, _, hservice⟩ | ⟨_, hservice⟩
        · have hmade := hseparate.ensureStream owner
          rw [UserEventStream.step, hservice]
          exact ⟨hmade.made, hmade.distinct⟩
        · rw [UserEventStream.step, hservice]
          exact hseparate

theorem Subscribed.step (hsubscribed : Subscribed world.service userId subscription stream)
    (parseJson : JsonParser) (event : Event) :
    Subscribed (step parseJson world event).service userId subscription stream := by
  cases event with
  | stream other =>
      have hmade := hsubscribed.ensureStream other
      exact ⟨hmade.owned, hmade.taken⟩
  | subscribe observable => exact hsubscribed.subscribe observable
  | message delivery =>
      rcases delivery with _ | message
      · exact hsubscribed
      · rcases service_onEvent parseJson world message with
          ⟨owner, event, _, hservice⟩ | ⟨_, hservice⟩
        · have hmade := hsubscribed.ensureStream owner
          rw [UserEventStream.step, hservice]
          exact ⟨hmade.owned, hmade.taken⟩
        · rw [UserEventStream.step, hservice]
          exact hsubscribed

theorem received_step (hseparate : Separate world.service)
    (hsubscribed : Subscribed world.service userId subscription stream) (event : Event) :
    (step parseJson world event).service.received subscription =
      world.service.received subscription ++
        (event.arrival.bind fun message =>
          published parseJson userId message.content).toList := by
  cases event with
  | stream other =>
      have hkept := (ensureStream_kept world.service other).2.2
      simp [step, UserEventStreamService.stream, UserEventStreamService.received, hkept,
        Event.arrival]
  | subscribe observable =>
      have hkept := (subscribe_kept world.service observable).2.2
      simp [step, UserEventStreamService.received, hkept, Event.arrival]
  | message delivery =>
      rcases delivery with _ | message
      · simp [step, onEvent, Event.arrival]
      · simp only [step, Event.arrival, Option.bind_some, published]
        rcases service_onEvent parseJson world message with
          ⟨owner, event, hread, hservice⟩ | ⟨hnone, hservice⟩
        · rw [hservice, received_publish hseparate hsubscribed, hread]
          simp only
          split <;> rfl
        · rw [hservice]
          split
          · rename_i hread
            exact absurd hread (hnone _ _)
          · simp

theorem received_foldl (hseparate : Separate world.service)
    (hsubscribed : Subscribed world.service userId subscription stream)
    (events : List Event) :
    (events.foldl (step parseJson) world).service.received subscription =
      world.service.received subscription ++
        (contents events).filterMap (published parseJson userId) := by
  induction events generalizing world with
  | nil => simp [contents, arrivals]
  | cons event events ih =>
      rw [List.foldl_cons, ih (hseparate.step parseJson event) (hsubscribed.step parseJson event),
        received_step hseparate hsubscribed, List.append_assoc, contents, contents,
        arrivals, arrivals]
      cases hmessage : event.arrival with
      | none => simp [hmessage]
      | some message =>
          cases hpublished : published parseJson userId message.content <;>
            simp [hmessage, hpublished]

theorem Owned.ensureStream {calls : List String} (howned : Owned calls service)
    (userId : String) : Owned calls (ensureStream service userId).2 := by
  rw [Owned, (ensureStream_kept service userId).1]
  exact howned.imp fun _ _ => lookup_ensureStream_of_lookup

theorem lookup_self (service : UserEventStreamService) (userId : String) :
    (ensureStream service userId).2.streams.lookup userId =
      some (ensureStream service userId).1 := by
  rw [lookup_ensureStream, if_pos rfl]

/-- What holds of the service in every run. -/
structure Consistent (calls : List String) (service : UserEventStreamService) : Prop where
  separate : Separate service
  owned : Owned calls service
  delivered : ∀ delivery ∈ service.deliveries, delivery.1 < service.subscriptions.length

theorem Consistent.publish {calls : List String} (hconsistent : Consistent calls service)
    (userId : String) (event : StreamEvent) :
    Consistent calls (service.publish userId event) := by
  have hkept := ensureStream_kept service userId
  have hmade := hconsistent.separate.ensureStream userId
  refine ⟨⟨hmade.made, hmade.distinct⟩, hconsistent.owned.ensureStream userId, ?_⟩
  intro delivery hdelivery
  change delivery ∈ (UserEventStream.ensureStream service userId).2.deliveries ++ _ at hdelivery
  change delivery.1 < (UserEventStream.ensureStream service userId).2.subscriptions.length
  rcases List.mem_append.mp hdelivery with hbefore | hnew
  · rw [hkept.2.2] at hbefore
    rw [hkept.2.1]
    exact hconsistent.delivered delivery hbefore
  · obtain ⟨subscription, hsubscription, rfl⟩ := List.mem_map.mp hnew
    exact List.mem_range.mp (List.mem_filter.mp hsubscription).1

theorem Consistent.step {calls : List String}
    (hconsistent : Consistent calls world.service) (parseJson : JsonParser)
    (event : Event) :
    Consistent (calls ++ event.streamCall.toList) (step parseJson world event).service := by
  have hseparate := hconsistent.separate.step parseJson event
  cases event with
  | stream userId =>
      have hkept := ensureStream_kept world.service userId
      refine ⟨hseparate, ?_, ?_⟩
      · have howned := hconsistent.owned.ensureStream userId
        exact List.rel_append howned (.cons (lookup_self world.service userId) .nil)
      · change ∀ delivery ∈ (ensureStream world.service userId).2.deliveries,
          delivery.1 < (ensureStream world.service userId).2.subscriptions.length
        rw [hkept.2.1, hkept.2.2]
        exact hconsistent.delivered
  | subscribe observable =>
      have hkept := subscribe_kept world.service observable
      refine ⟨hseparate, ?_, ?_⟩
      · change Owned (calls ++ []) (world.service.subscribe observable)
        rw [List.append_nil, Owned, hkept.1, hkept.2.1]
        exact hconsistent.owned
      · change ∀ delivery ∈ (world.service.subscribe observable).deliveries,
          delivery.1 < (world.service.subscribe observable).subscriptions.length
        rw [hkept.2.2]
        intro delivery hdelivery
        have hlt := hconsistent.delivered delivery hdelivery
        unfold UserEventStreamService.subscribe
        split
        · rw [List.length_append]
          exact Nat.lt_add_right _ hlt
        · exact hlt
  | message delivery =>
      change Consistent (calls ++ []) (onEvent parseJson world delivery).service
      rw [List.append_nil]
      rcases delivery with _ | message
      · exact hconsistent
      · rcases service_onEvent parseJson world message with
          ⟨owner, event, _, hservice⟩ | ⟨_, hservice⟩
        · rw [hservice]
          exact hconsistent.publish owner event
        · rw [hservice]
          exact hconsistent

theorem run_concat (parseJson : JsonParser) (events : List Event) (event : Event) :
    run parseJson (events ++ [event]) = step parseJson (run parseJson events) event := by
  rw [run, List.foldl_append]
  rfl

theorem consistent_run (parseJson : JsonParser) (events : List Event) :
    Consistent (streamCalls events) (run parseJson events).service := by
  induction events using List.reverseRecOn with
  | nil =>
      refine ⟨⟨?_, ?_⟩, .nil, ?_⟩
      · simp [run, World.init]
      · simp [run, World.init]
      · simp [run, World.init]
  | append_singleton events event ih =>
      rw [run_concat, streamCalls, List.filterMap_append]
      cases hcall : event.streamCall <;>
        simpa [hcall, streamCalls] using ih.step parseJson event

theorem Consistent.subscribed {calls : List String} {observable : Nat}
    (hconsistent : Consistent calls service) (hcall : calls[observable]? = some userId) :
    ∃ stream, Subscribed (service.subscribe observable) userId
      service.subscriptions.length stream := by
  obtain ⟨hlt, rfl⟩ := List.getElem?_eq_some_iff.mp hcall
  have hlength : observable < service.observables.length :=
    hconsistent.owned.length_eq ▸ hlt
  have howned := List.Forall₂.get hconsistent.owned hlt hlength
  have hget := List.getElem?_eq_getElem hlength
  refine ⟨service.observables[observable], ?_, ?_⟩
  · rw [(subscribe_kept service observable).1]
    exact howned
  · simp [UserEventStreamService.subscribe, hget]

theorem Consistent.received_new {calls : List String}
    (hconsistent : Consistent calls service) (observable : Nat) :
    (service.subscribe observable).received service.subscriptions.length = [] := by
  rw [UserEventStreamService.received, (subscribe_kept service observable).2.2,
    List.map_eq_nil_iff, List.filter_eq_nil_iff]
  intro delivery hdelivery
  simpa using (hconsistent.delivered delivery hdelivery).ne

/-- What the subscription that is taken next receives in the rest of the run. -/
def receivedAfter (parseJson : JsonParser) (before : List Event) (observable : Nat)
    (after : List Event) : List StreamEvent :=
  (run parseJson (before ++ .subscribe observable :: after)).service.received
    (run parseJson before).service.subscriptions.length

theorem receivedAfter_eq {before : List Event} {observable : Nat}
    (hcall : (streamCalls before)[observable]? = some userId) (after : List Event) :
    receivedAfter parseJson before observable after =
      (contents after).filterMap (published parseJson userId) := by
  have hconsistent := consistent_run parseJson before
  obtain ⟨stream, hsubscribed⟩ := hconsistent.subscribed hcall
  have hseparate := hconsistent.separate.step parseJson (.subscribe observable)
  have hreceived : (step parseJson (run parseJson before)
      (.subscribe observable)).service.received
        (run parseJson before).service.subscriptions.length = [] :=
    hconsistent.received_new observable
  rw [receivedAfter, run, List.foldl_append, List.foldl_cons]
  change ((after.foldl (step parseJson) (step parseJson (run parseJson before)
    (.subscribe observable))).service).received _ = _
  rw [received_foldl hseparate hsubscribed, hreceived, List.nil_append]

theorem extractUserId_eq_some_iff {envelope : Envelope} :
    extractUserId envelope = some userId ↔ envelope.BelongsTo userId := by
  unfold extractUserId Envelope.BelongsTo
  have hstring : ∀ value, asString value = some userId → isString value = true := by
    intro value hvalue
    unfold asString at hvalue
    split at hvalue
    · rfl
    · cases hvalue
  by_cases hpayment : envelope.type = "payment.status-updated"
  · by_cases hid : isString (envelope.payload.get "userId") = true
    · simp [hpayment, hid]
    · have hnone : asString (envelope.payload.get "userId") ≠ some userId :=
        fun h => hid (hstring _ h)
      simp [hpayment, hid, hnone]
  · by_cases hpremium : envelope.type = "user.premium-updated"
    · by_cases hid : isString (envelope.payload.get "id") = true
      · simp [hpremium, hid]
      · have hnone : asString (envelope.payload.get "id") ≠ some userId :=
          fun h => hid (hstring _ h)
        simp [hpremium, hid, hnone]
    · simp [hpayment, hpremium]

/-- `onEvent` publishes to a user the events for the user, except under the empty
id and where the debug line cannot be made. -/
theorem published_eq (parseJson : JsonParser) (userId : String) (content : List UInt8) :
    published parseJson userId content =
      if userId ≠ "" ∧ isShown parseJson content then eventFor parseJson userId content
      else none := by
  unfold published readEvent isShown eventFor envelopeOf
  cases hparse : parseEventEnvelope parseJson content with
  | error error => simp [bind, Except.bind, Except.toOption]
  | ok envelope =>
      simp only [bind, Except.bind, debug, Except.toOption]
      by_cases hshown : envelope.isShown = true
      · simp only [hshown, if_true, Option.all_some, and_true]
        cases hid : extractUserId envelope with
        | none =>
            have hnot : ¬ envelope.BelongsTo userId := fun h => by
              rw [← extractUserId_eq_some_iff, hid] at h
              cases h
            simp [Option.filter, hnot]
        | some owner =>
            have hiff : envelope.BelongsTo userId ↔ owner = userId := by
              rw [← extractUserId_eq_some_iff, hid, Option.some.injEq]
            by_cases howner : owner = userId
            · subst howner
              by_cases hempty : owner = ""
              · simp [hempty]
              · simp [Option.filter, hempty, hiff.mpr rfl]
            · have hnot : ¬ envelope.BelongsTo userId := fun h => howner (hiff.mp h)
              by_cases hempty : owner = "" <;>
                simp [Option.filter, hempty, howner, hnot]
      · simp [hshown]

theorem receivedAfter_exact {before : List Event} {observable : Nat}
    (hcall : (streamCalls before)[observable]? = some userId) (hne : userId ≠ "")
    (after : List Event) :
    receivedAfter parseJson before observable after =
      ((contents after).filter (isShown parseJson)).filterMap
        (eventFor parseJson userId) := by
  rw [receivedAfter_eq hcall, List.filterMap_filter]
  refine List.filterMap_congr fun content _ => ?_
  simp [published_eq, hne]

theorem receivedAfter_congr {before before' after after' : List Event}
    {observable observable' : Nat}
    (hcall : (streamCalls before)[observable]? = some userId)
    (hcall' : (streamCalls before')[observable']? = some userId)
    (hsame : (contents after).filter (fun content =>
        (eventFor parseJson userId content).isSome) =
      (contents after').filter fun content =>
        (eventFor parseJson userId content).isSome) :
    receivedAfter parseJson before observable after =
      receivedAfter parseJson before' observable' after' := by
  have hfilter : ∀ contents : List (List UInt8),
      contents.filterMap (published parseJson userId) =
        (contents.filter fun content =>
          (eventFor parseJson userId content).isSome).filterMap
            (published parseJson userId) := by
    intro contents
    rw [List.filterMap_filter]
    refine List.filterMap_congr fun content _ => ?_
    split
    · rfl
    · rename_i hnone
      have heq : eventFor parseJson userId content = none := by simpa using hnone
      rw [published_eq, heq, ite_self]
  rw [receivedAfter_eq hcall, receivedAfter_eq hcall', hfilter, hsame, ← hfilter]

theorem settlements_step (world : World) (event : Event) :
    (step parseJson world event).settlements.map Prod.fst =
      world.settlements.map Prod.fst ++ (event.arrival.map Message.deliveryTag).toList := by
  cases event with
  | stream userId => simp [step, Event.arrival]
  | subscribe observable => simp [step, Event.arrival]
  | message delivery =>
      rcases delivery with _ | message
      · simp [step, onEvent, Event.arrival]
      · simp only [step, onEvent, Event.arrival]
        split <;> simp [World.settle]

theorem settlements_run (parseJson : JsonParser) (events : List Event) :
    (run parseJson events).settlements.map Prod.fst =
      (arrivals events).map Message.deliveryTag := by
  induction events using List.reverseRecOn with
  | nil => rfl
  | append_singleton events event ih =>
      rw [run_concat, settlements_step, ih, arrivals, arrivals, List.filterMap_append,
        List.map_append]
      cases hmessage : event.arrival <;> simp [hmessage]

end Runs

/-- A subscriber receives the events for its user that arrive after it has
subscribed, whatever else arrives, and every message is settled once. -/
theorem streams_isolated (parseJson : JsonParser) :
    (∀ before observable after userId, userId ≠ "" →
      (streamCalls before)[observable]? = some userId →
      receivedAfter parseJson before observable after =
        ((contents after).filter (isShown parseJson)).filterMap
          (eventFor parseJson userId)) ∧
    (∀ before before' observable observable' after after' userId,
      (streamCalls before)[observable]? = some userId →
      (streamCalls before')[observable']? = some userId →
      (contents after).filter (fun content =>
          (eventFor parseJson userId content).isSome) =
        (contents after').filter (fun content =>
          (eventFor parseJson userId content).isSome) →
      receivedAfter parseJson before observable after =
        receivedAfter parseJson before' observable' after') ∧
    ∀ events, (run parseJson events).settlements.map Prod.fst =
      (arrivals events).map Message.deliveryTag :=
  ⟨fun _ _ after _ hne hcall => receivedAfter_exact hcall hne after,
    fun _ _ _ _ _ _ _ => receivedAfter_congr, settlements_run parseJson⟩

section Sample

/-- An event of `user.premium-updated` for a user, with further members. -/
def sampleText (userId members : String) : List UInt8 :=
  bytes ("\x7b\"messageId\":\"m-1\",\"correlationId\":\"c-1\"," ++
    "\"occurredAt\":\"2026-04-25T12:00:00Z\",\"type\":\"user.premium-updated\"," ++
    "\"payload\":\x7b\"id\":\"" ++ userId ++ "\"\x7d" ++ members ++ "\x7d")

def sampleJson (userId : String) (members : List (String × Json)) : Json :=
  .object ([("messageId", .string "m-1"), ("correlationId", .string "c-1"),
    ("occurredAt", .string "2026-04-25T12:00:00Z"),
    ("type", .string "user.premium-updated"),
    ("payload", .object [("id", .string userId)])] ++ members)

def sampleMessage (userId : String) : Message where
  deliveryTag := 1
  content := sampleText userId ""

/-- Its `eventType` has an own property `toString`. -/
def hiddenMessage (userId : String) : Message where
  deliveryTag := 2
  content := sampleText userId ",\"eventType\":\x7b\"toString\":null\x7d"

/-- `JSON.parse` at these messages for a user. -/
def sampleParser (userId : String) : JsonParser := fun content =>
  if content = (sampleMessage userId).content then .ok (sampleJson userId [])
  else if content = (hiddenMessage userId).content then
    .ok (sampleJson userId [("eventType", .object [("toString", .null)])])
  else .error "Unexpected end of JSON input"

/-- `JSON.parse` at the messages for two users. -/
def pairParser : JsonParser := fun content =>
  if content = (sampleMessage "user-2").content then .ok (sampleJson "user-2" [])
  else sampleParser "user-1" content

/-- A message that is cut off. -/
def malformedMessage : Message where
  deliveryTag := 3
  content := bytes "\x7b\"messageId\":"

/-- Both users listen.  A message for each arrives, one that is cut off, and one whose
debug line cannot be made. -/
def sampleArrivals : List Event :=
  [.message (some (sampleMessage "user-2")), .message (some malformedMessage),
    .message (some (sampleMessage "user-1")), .message none,
    .message (some (hiddenMessage "user-1"))]

theorem streams_isolated_sample :
    (receivedAfter pairParser [.stream "user-1", .stream "user-2"] 0
      sampleArrivals).length = 1 ∧
    receivedAfter pairParser [.stream "user-1", .stream "user-2"] 0 sampleArrivals =
      ((contents sampleArrivals).filter (isShown pairParser)).filterMap
        (eventFor pairParser "user-1") ∧
    receivedAfter pairParser [.stream "user-1", .stream "user-2"] 1 sampleArrivals =
      ((contents sampleArrivals).filter (isShown pairParser)).filterMap
        (eventFor pairParser "user-2") :=
  ⟨by decide +kernel,
    (streams_isolated pairParser).1 [.stream "user-1", .stream "user-2"] 0 sampleArrivals
      "user-1" (by decide) rfl,
    (streams_isolated pairParser).1 [.stream "user-1", .stream "user-2"] 1 sampleArrivals
      "user-2" (by decide) rfl⟩

/-- An event under the empty id reaches nobody, and neither does one whose debug line
cannot be made. -/
theorem events_dropped :
    (receivedAfter (sampleParser "") [.stream ""] 0
        [.message (some (sampleMessage ""))] ≠
      (contents [.message (some (sampleMessage ""))]).filterMap
        (eventFor (sampleParser "") "")) ∧
    (receivedAfter (sampleParser "user-1") [.stream "user-1"] 0
        [.message (some (hiddenMessage "user-1"))] ≠
      (contents [.message (some (hiddenMessage "user-1"))]).filterMap
        (eventFor (sampleParser "user-1") "user-1")) := by
  constructor
  · intro h
    have hlength := congrArg List.length h
    revert hlength
    decide
  · intro h
    have hlength := congrArg List.length h
    revert hlength
    decide +kernel

end Sample

end Modularis.Gateway.UserEventStream
