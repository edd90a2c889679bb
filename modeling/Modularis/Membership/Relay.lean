import Modularis.Membership.Activation
import Modularis.Membership.OutboxPublisher
import Modularis.Shared.RabbitBus

namespace Modularis.Membership.Relay

open Modularis.Foundation
open Modularis.Shared.Uuid
open Modularis.Shared.RabbitBus (Json)
open Modularis.Membership.Database
open Modularis.Membership.Service
open Modularis.Membership.Activation (Premium Effect Published announcements premiumKeys)

section System

/-- What is stored of an event to send it. -/
structure Announcement where
  id : UUID
  routingKey : String
  correlationId : String
  causationId : String
  payloadJson : String
deriving DecidableEq

/-- What `publishPendingEvents` hands to `convertAndSend`: the tree of a stored payload, with
the event for the routing key and the headers. -/
structure Message where
  event : Announcement
  payload : Json

/-- The payload, as the mapper sees it. -/
def payloadJson (payload : UserPremiumUpdatedEventPayload) : Json :=
  .object [("id", .string payload.id), ("isPremium", .bool payload.isPremium)]

/-- The record with its getters. -/
def messageJson (message : PremiumMessage) : Json :=
  .object
    [("schemaVersion", .string message.schemaVersion),
      ("messageId", .string message.messageId),
      ("correlationId", .string message.correlationId),
      ("causationId", .string message.causationId),
      ("occurredAt", .string message.occurredAt), ("type", .string message.type),
      ("source", .string message.source), ("payload", payloadJson message.payload),
      ("eventVersion", .string message.schemaVersion), ("id", .string message.messageId),
      ("timestamp", .string message.occurredAt), ("eventType", .string message.type)]

/-- The `ObjectMapper` and the size of a batch. -/
structure Setting where
  writeValueAsString : Json → String
  readTree : String → Option Json
  maxBatchSize : Nat

/-- The announcement that a listener has stored. -/
def Setting.announcement (S : Setting) (row : OutboxEventEntity) : Announcement where
  id := row.id
  routingKey := row.routingKey
  correlationId := row.correlationId
  causationId := row.causationId
  payloadJson := S.writeValueAsString (messageJson row.payloadJson)

/-- The message that the listener means. -/
def Setting.message (S : Setting) (row : OutboxEventEntity) : Message where
  event := S.announcement row
  payload := messageJson row.payloadJson

/-- What an instance has loaded of a row. -/
def announcementOf (event : OutboxPublisher.OutboxEventEntity) : Announcement where
  id := event.id
  routingKey := event.routingKey
  correlationId := event.correlationId
  causationId := event.causationId
  payloadJson := event.payloadJson

/-- The row as the outbox receives it. -/
def create (S : Setting) (nextAttemptAt createdAt : UUID → Int)
    (row : OutboxEventEntity) : OutboxPublisher.Event :=
  .create row.id row.routingKey row.correlationId row.causationId
    (S.writeValueAsString (messageJson row.payloadJson)) (nextAttemptAt row.id)
    (createdAt row.id)

/-- `sent`, what was handed over to be sent, is a history. -/
structure World where
  listeners : Activation.World
  outbox : OutboxPublisher.World
  sent : List Message

/-- Nothing was delivered, stored or sent. -/
def World.init : World where
  listeners := .init
  outbox := .init
  sent := []

/-- The database that listeners and instances share. -/
def World.db (world : World) : MembershipDatabase := world.listeners.shared.db

/-- A listener sets the times of the rows that it stores. -/
inductive Event where
  | listener (event : Activation.Event) (nextAttemptAt createdAt : UUID → Int)
  | publisher (event : OutboxPublisher.Event)

/-- The rows that a step of a listener has stored. -/
def added (before after : MembershipDatabase) : List OutboxEventEntity :=
  after.outboxEvents.rows.filter fun row => (before.outboxEvents.row row.id).isNone

/-- The event that an instance is about to send. -/
def head (outbox : OutboxPublisher.World) :
    OutboxPublisher.Event → Option OutboxPublisher.OutboxEventEntity
  | .publish publisher _ _ => (outbox.publishers publisher).bind (·.pendingEvents.head?)
  | _ => none

/-- What a step of an instance hands over.  A send that throws may have reached the broker;
a payload that cannot be read is not sent. -/
def handed (S : Setting) (outbox : OutboxPublisher.World) (event : OutboxPublisher.Event) :
    Option Message :=
  (head outbox event).bind fun event =>
    (S.readTree event.payloadJson).map fun payload =>
      { event := announcementOf event
        payload := payload }

/-- Rows come from the listeners, and a send returns only if the payload could be read. -/
def admits (S : Setting) (outbox : OutboxPublisher.World) :
    OutboxPublisher.Event → Bool
  | .create .. => false
  | .publish publisher sent now =>
      !sent || (handed S outbox (.publish publisher sent now)).isSome
  | _ => true

/-- A listener makes a call and what it stores is in the outbox, or an instance takes a
step. -/
def step (S : Setting) (world : World) : Event → Option World
  | .listener event nextAttemptAt createdAt =>
      (Activation.step world.listeners event).bind fun listeners =>
        (StepSystem.replay (OutboxPublisher.step S.maxBatchSize) world.outbox
          ((added world.db listeners.shared.db).map
            (create S nextAttemptAt createdAt))).map fun outbox =>
              { world with
                listeners := listeners
                outbox := outbox }
  | .publisher event =>
      if admits S world.outbox event then
        (OutboxPublisher.step S.maxBatchSize world.outbox event).map fun outbox =>
          { world with
            outbox := outbox
            sent := world.sent ++ (handed S world.outbox event).toList }
      else none

abbrev Reachable (S : Setting) := StepSystem.Reachable (step S) World.init

end System

section Listeners

/-- An announcement of a premium user. -/
structure Announces (db : MembershipDatabase) (userId : UUID) (row : OutboxEventEntity) :
    Prop where
  premium : Premium db userId
  routingKey : row.routingKey ∈ premiumKeys
  payload : row.payloadJson.payload = { id := userId.toString, isPremium := true }

/-- All messages say that their user is premium. -/
def Affirmed (rows : List OutboxEventEntity) : Prop :=
  ∀ row ∈ rows, row.payloadJson.payload.isPremium = true

/-- The rows are announcements of premium users. -/
def Announced (db : MembershipDatabase) : Prop :=
  ∀ row ∈ db.outboxEvents.rows, ∃ userId, Premium db userId ∧
    row.routingKey ∈ premiumKeys ∧ row.payloadJson.payload.id = userId.toString

variable {event : PaymentConfirmedEventMessage} {s t : Store}

theorem rows_of_effect (h : Effect event s t) :
    s.db.outboxEvents.rows ⊆ t.db.outboxEvents.rows := by
  cases h with
  | kept => exact List.Subset.refl _
  | seen _ _ _ hrows =>
      rw [hrows]
      exact List.Subset.refl _
  | activated _ _ _ hrows _ _ =>
      rw [hrows]
      exact List.subset_append_left _ _

theorem announced_of_effect (hs : Announced s.db) (h : Effect event s t) :
    Announced t.db := by
  have hpremium : ∀ {userId}, Premium s.db userId → Premium t.db userId :=
    fun hbefore => Activation.premium_of_effect h hbefore
  cases h with
  | kept => exact hs
  | seen _ _ _ hrows =>
      intro row hrow
      obtain ⟨userId, hbefore, hstates⟩ := hs row (hrows ▸ hrow)
      exact ⟨userId, hpremium hbefore, hstates⟩
  | @activated userId _ first second _ hnew hmemberships hrows hfirst hsecond =>
      have hactive := (Activation.premium_inserted hnew hmemberships userId).mpr (.inl rfl)
      intro row hrow
      rw [hrows] at hrow
      rcases List.mem_append.mp hrow with hold | hadded
      · obtain ⟨other, hbefore, hstates⟩ := hs row hold
        exact ⟨other, hpremium hbefore, hstates⟩
      · rcases List.mem_pair.mp hadded with rfl | rfl
        · exact ⟨userId, hactive, by simp [hfirst.routingKey, premiumKeys], hfirst.id⟩
        · exact ⟨userId, hactive, by simp [hsecond.routingKey, premiumKeys], hsecond.id⟩

theorem flush_rows {db db' : MembershipDatabase} {writes : Writes}
    (h : db.flush writes = some db') :
    ∃ rows, StoredAs writes.outboxEvents rows ∧
      db'.outboxEvents.rows = db.outboxEvents.rows ++ rows := by
  obtain ⟨written, hwritten, hrest⟩ := Option.bind_eq_some_iff.mp h
  obtain ⟨_, houtbox⟩ := writeReceipt_some hwritten
  obtain ⟨saved, hsaved, hevents⟩ := Option.bind_eq_some_iff.mp hrest
  have hkept : saved.outboxEvents = written.outboxEvents := by
    cases hmembership : writes.membership with
    | none =>
        rw [hmembership] at hsaved
        obtain rfl := Option.some.inj hsaved
        rfl
    | some membership =>
        obtain ⟨user, how⟩ := membership
        rw [hmembership] at hsaved
        cases how with
        | insert =>
            simp only [MembershipDatabase.writeMembership] at hsaved
            split at hsaved
            · obtain rfl := Option.some.inj hsaved
              rfl
            · cases hsaved
        | update =>
            simp only [MembershipDatabase.writeMembership] at hsaved
            split at hsaved
            · cases hsaved
            · obtain rfl := Option.some.inj hsaved
              rfl
        | overwrite => cases hsaved
  obtain ⟨_, rows, hstored, hrows⟩ := writeOutboxEvents_some hevents
  exact ⟨rows, hstored, by rw [hrows, hkept, houtbox]⟩

theorem Affirmed.stored {events rows : List OutboxEventEntity} (h : Affirmed events)
    (hstored : StoredAs events rows) : Affirmed rows := by
  induction hstored with
  | nil => exact fun _ hrow => absurd hrow List.not_mem_nil
  | cons hfirst _ ih =>
      obtain ⟨_, _, _, _, hpayload⟩ := OutboxEventEntity.stored_eq_some_iff.mp hfirst
      obtain ⟨hevent, hrest⟩ := List.forall_mem_cons.mp h
      exact List.forall_mem_cons.mpr ⟨by rw [hpayload, hevent], ih hrest⟩

/-- A commit of messages that all say so. -/
def affirms : Op → Prop
  | .commit writes => Affirmed writes.outboxEvents
  | _ => True

theorem calls_commit {writes : Writes} (h : Affirmed writes.outboxEvents) :
    (commit writes).Calls affirms := by
  refine ⟨h, fun reply => ?_⟩
  cases reply <;> exact trivial

theorem calls_activation {receipt : ConsumedMessageReceiptEntity} {saved : Saved}
    {membership : Option (UserEntity × Saved)} {user : UserEntity} :
    (do
      let activated ← premiumMessage "membership.premium-activated" "membership-service"
        user event
      let first ← publishOutboxEvent "membership.premium-activated" activated event
      let updated ← premiumMessage "user.premium-updated" "user-service" user event
      let second ← publishOutboxEvent "user.premium-updated" updated event
      commit ⟨receipt, saved, membership, [first, second]⟩).Calls affirms := by
  refine ⟨trivial, fun _ => ⟨trivial, fun _ => ⟨trivial, fun _ => ?_⟩⟩⟩
  refine ⟨trivial, fun _ => ⟨trivial, fun _ => ⟨trivial, fun _ => ?_⟩⟩⟩
  refine calls_commit fun row hrow => ?_
  rcases List.mem_pair.mp hrow with rfl | rfl <;> rfl

theorem calls_handlePaymentConfirmed (event : PaymentConfirmedEventMessage) :
    (handlePaymentConfirmed event).Calls affirms := by
  refine ⟨trivial, fun receipt => ?_⟩
  cases UUID.fromString event.payload.userId with
  | none => exact trivial
  | some userId =>
      refine ⟨trivial, fun found => ?_⟩
      cases found with
      | none => exact ⟨trivial, fun _ => calls_activation⟩
      | some user =>
          change Program.Calls affirms (if user.premium = true then _ else _)
          split
          · exact calls_commit nofun
          · exact calls_activation

/-- Every commit keeps all messages saying so. -/
def affirming : Pool.Rules (fun _ : Nat => act) where
  inv := fun store => Affirmed store.db.outboxEvents.rows
  rely := fun _ _ _ => True
  guar := fun _ _ s t =>
    Affirmed s.db.outboxEvents.rows → Affirmed t.db.outboxEvents.rows
  ready := fun _ _ => True
  rely_refl := fun _ _ => trivial
  rely_trans := fun _ _ _ _ _ _ => trivial
  guar_refl := fun _ _ _ h => h
  inv_of_guar := fun _ _ _ _ hs hguar => hguar hs
  rely_of_guar := fun _ _ _ _ _ _ _ _ => trivial
  ready_of_rely := fun _ _ _ _ _ => trivial

theorem affirmed_act {op : Op} (hop : affirms op) {choice : Choice}
    (hs : Affirmed s.db.outboxEvents.rows) :
    Affirmed (act event s op choice).2.db.outboxEvents.rows := by
  cases op with
  | randomUUID | now | findReceipt | findById => exact hs
  | commit writes =>
      cases hflush : s.db.flush writes with
      | none =>
          simp only [act, hflush]
          exact hs
      | some db =>
          obtain ⟨rows, hstored, hrows⟩ := flush_rows hflush
          simp only [act, hflush, hrows]
          intro row hrow
          rcases List.mem_append.mp hrow with hold | hnew
          · exact hs row hold
          · exact Affirmed.stored hop hstored row hnew

variable {world next : Activation.World}

theorem affirmed_of_reachable
    (h : StepSystem.Reachable Activation.step Activation.World.init world) :
    Affirmed world.shared.db.outboxEvents.rows := by
  have hsafe : ∀ (i : Nat) (event : PaymentConfirmedEventMessage) (s : Store),
      (handlePaymentConfirmed event).Safe (affirming.contract i event)
        (fun _ _ => True) s := by
    intro i event s
    refine (calls_handlePaymentConfirmed event).safe ?_ fun _ _ _ => trivial
    exact fun op hop t _ choice ht => affirmed_act hop ht
  have horderly : Pool.Orderly affirming (fun _ _ _ _ => True) world :=
    Pool.orderly_of_reachable (fun i event s _ _ => hsafe i event s)
      (fun _ hrow => absurd hrow List.not_mem_nil) (fun _ => trivial) h
  exact horderly.inv

theorem announced_of_step
    (h : StepSystem.Reachable Activation.step Activation.World.init world)
    {event : Activation.Event} (hstep : Activation.step world event = some next) :
    world.shared.db.outboxEvents.rows ⊆ next.shared.db.outboxEvents.rows ∧
      (Announced world.shared.db → Announced next.shared.db) := by
  obtain ⟨_, hmoved⟩ := (Activation.sound_of_reachable h).step
    (fun _ _ _ _ _ => Activation.keeps_handlePaymentConfirmed) hstep
  cases hmoved with
  | kept hsame =>
      rw [hsame]
      exact ⟨List.Subset.refl _, id⟩
  | acted _ _ _ heffect =>
      exact ⟨rows_of_effect heffect, fun hbefore => announced_of_effect hbefore heffect⟩

theorem announces_of_row
    (h : StepSystem.Reachable Activation.step Activation.World.init world)
    {row : OutboxEventEntity} (hrow : row ∈ world.shared.db.outboxEvents.rows) :
    ∃ userId, Announces world.shared.db userId row := by
  have hall : StepSystem.Reachable Activation.step Activation.World.init world ∧
      Announced world.shared.db := by
    refine h.invariant (I := fun world =>
      StepSystem.Reachable Activation.step Activation.World.init world ∧
        Announced world.shared.db) ⟨.refl _, fun _ hrow => absurd hrow List.not_mem_nil⟩ ?_
    exact fun _ _ _ hbefore hstep =>
      ⟨hbefore.1.tail hstep, (announced_of_step hbefore.1 hstep).2 hbefore.2⟩
  obtain ⟨userId, hpremium, hkey, hid⟩ := hall.2 row hrow
  refine ⟨userId, hpremium, hkey, ?_⟩
  have hstates := affirmed_of_reachable h row hrow
  cases hpayload : row.payloadJson.payload with
  | mk id isPremium =>
      rw [hpayload] at hid hstates
      simp only at hid hstates
      rw [hid, hstates]

end Listeners

section Outbox

variable {S : Setting} {world next : World}

/-- The announcement is stored as it is. -/
def Stands (S : Setting) (db : MembershipDatabase) (announcement : Announcement) : Prop :=
  (db.outboxEvents.row announcement.id).map S.announcement = some announcement

/-- The copies of an instance say what is stored. -/
def Copies (S : Setting) (db : MembershipDatabase) (batch : OutboxPublisher.Batch) : Prop :=
  ∀ event ∈ batch.changed ++ batch.pendingEvents, Stands S db (announcementOf event)

/-- The message is a stored announcement, with the tree of its text. -/
structure Carries (S : Setting) (db : MembershipDatabase) (message : Message) : Prop where
  stands : Stands S db message.event
  tree : S.readTree message.event.payloadJson = some message.payload

/-- Listeners and instances see one table, and only what is stored is sent. -/
structure Sound (S : Setting) (world : World) : Prop where
  listeners : StepSystem.Reachable Activation.step Activation.World.init world.listeners
  consistent : OutboxPublisher.Consistent world.outbox
  mirrored : ∀ id, (world.outbox.outboxEvents.row id).map announcementOf =
    (world.db.outboxEvents.row id).map S.announcement
  copied : ∀ publisher batch, world.outbox.publishers publisher = some batch →
    Copies S world.db batch
  sent : ∀ message ∈ world.sent, Carries S world.db message
  reached : ∀ id ∈ world.outbox.sent, ∃ message ∈ world.sent, message.event.id = id

theorem Stands.mono {db db' : MembershipDatabase} {announcement : Announcement}
    (h : Stands S db announcement)
    (hgrown : db.outboxEvents.rows ⊆ db'.outboxEvents.rows) : Stands S db' announcement := by
  obtain ⟨row, hrow, hstates⟩ := Option.map_eq_some_iff.mp h
  have hmem := hgrown (Table.mem_rows_of_row hrow)
  rw [Table.mem_rows_iff, db.outboxEvents.key_row _ row hrow] at hmem
  exact Option.map_eq_some_iff.mpr ⟨row, hmem, hstates⟩

theorem row_of_created {nextAttemptAt createdAt : UUID → Int} {rows : List OutboxEventEntity}
    {outbox outbox' : OutboxPublisher.World}
    (h : StepSystem.replay (OutboxPublisher.step S.maxBatchSize) outbox
      (rows.map (create S nextAttemptAt createdAt)) = some outbox') :
    outbox'.publishers = outbox.publishers ∧ outbox'.sent = outbox.sent ∧ ∀ id,
      (outbox'.outboxEvents.row id).map announcementOf =
        ((outbox.outboxEvents.row id).map announcementOf).or
          ((rows.find? fun row => row.id = id).map S.announcement) := by
  induction rows generalizing outbox with
  | nil =>
      obtain rfl := Option.some.inj h
      exact ⟨rfl, rfl, fun _ => Option.or_none.symm⟩
  | cons row rows ih =>
      obtain ⟨created, hcreated, hrest⟩ := Option.bind_eq_some_iff.mp h
      obtain rfl := Option.some.inj hcreated
      obtain ⟨hpublishers, hsent, hrows⟩ := ih hrest
      refine ⟨hpublishers, hsent, fun id => ?_⟩
      rw [hrows, Table.row_insertIfAbsent]
      by_cases hid : row.id = id
      · subst hid
        cases hold : outbox.outboxEvents.row row.id with
        | none => simp [hold, OutboxPublisher.newEvent, announcementOf, Setting.announcement]
        | some event => simp [hold, OutboxPublisher.newEvent]
      · have hother : ¬ id = row.id := fun h => hid h.symm
        simp [OutboxPublisher.newEvent, hid, hother]

theorem sound_of_listener (h : Sound S world) {event : Activation.Event}
    {nextAttemptAt createdAt : UUID → Int}
    (hstep : step S world (.listener event nextAttemptAt createdAt) = some next) :
    Sound S next := by
  obtain ⟨listeners, hlisteners, hstored⟩ := Option.bind_eq_some_iff.mp hstep
  obtain ⟨outbox, houtbox, rfl⟩ := Option.map_eq_some_iff.mp hstored
  obtain ⟨hpublishers, hsent, hrows⟩ := row_of_created houtbox
  have hgrown := (announced_of_step h.listeners hlisteners).1
  refine ⟨h.listeners.tail hlisteners, ?_, fun id => ?_, ?_, ?_, ?_⟩
  · refine (StepSystem.run_of_replay houtbox).invariant (I := OutboxPublisher.Consistent)
      (fun _ _ => True) h.consistent ?_ fun _ _ => trivial
    exact fun _ _ _ hbefore _ hs => OutboxPublisher.consistent_step hbefore hs
  · have htable := Table.row_eq_or_find? hgrown id
    change _ = (listeners.shared.db.outboxEvents.row id).map S.announcement
    rw [hrows, h.mirrored, htable, Option.map_or]
    rfl
  · intro publisher batch hbatch event hevent
    change outbox.publishers publisher = some batch at hbatch
    rw [hpublishers] at hbatch
    exact (h.copied publisher batch hbatch event hevent).mono hgrown
  · exact fun message hmem =>
      ⟨(h.sent message hmem).stands.mono hgrown, (h.sent message hmem).tree⟩
  · change ∀ id ∈ outbox.sent, _
    rw [hsent]
    exact h.reached

theorem stands_of_row (h : Sound S world) {event : OutboxPublisher.OutboxEventEntity}
    (hrow : world.outbox.outboxEvents.row event.id = some event) :
    Stands S world.db (announcementOf event) := by
  have hmirrored := h.mirrored event.id
  rw [hrow] at hmirrored
  exact hmirrored.symm

theorem copies_of_publish {db : MembershipDatabase} {batch batch' : OutboxPublisher.Batch}
    {sent : Bool} {now : Int} {event : OutboxPublisher.OutboxEventEntity}
    (h : Copies S db batch) (hpublish : batch.publish sent now = some (event, batch')) :
    Copies S db batch' := by
  obtain ⟨rest, hpending, hrest, hchanged⟩ := OutboxPublisher.publish_cases hpublish
  have hsame : announcementOf (if sent then event.markPublished now
      else event.scheduleRetry now) = announcementOf event := by
    cases sent <;> rfl
  intro other hother
  rw [hrest, hchanged, List.append_assoc, List.singleton_append] at hother
  rcases List.mem_append.mp hother with hold | hlater
  · exact h other (List.mem_append_left _ hold)
  · rcases List.mem_cons.mp hlater with rfl | hmem
    · rw [hsame]
      exact h event (List.mem_append_right _ (hpending ▸ List.mem_cons_self))
    · exact h other (List.mem_append_right _ (hpending ▸ List.mem_cons_of_mem _ hmem))

theorem copies_update {db : MembershipDatabase}
    {publishers : String → Option OutboxPublisher.Batch} {publisher : String}
    {batch : Option OutboxPublisher.Batch}
    (hall : ∀ other b, publishers other = some b → Copies S db b)
    (hnew : ∀ b, batch = some b → Copies S db b) :
    ∀ other b, Function.update publishers publisher batch other = some b →
      Copies S db b := by
  intro other b hb
  by_cases hother : other = publisher
  · subst hother
    rw [Function.update_self] at hb
    exact hnew b hb
  · rw [Function.update_of_ne hother] at hb
    exact hall other b hb

theorem mirrored_of_commit (h : Sound S world) {publisher : String}
    {batch : OutboxPublisher.Batch} {events : OutboxPublisher.OutboxEvents}
    (hbatch : world.outbox.publishers publisher = some batch)
    (hwrite : OutboxPublisher.writeAll world.outbox.outboxEvents batch.changed = some events)
    (id : UUID) :
    (events.row id).map announcementOf =
      (world.db.outboxEvents.row id).map S.announcement := by
  by_cases hid : id ∈ batch.changed.map OutboxPublisher.OutboxEventEntity.id
  · obtain ⟨changed, hchanged, rfl⟩ := List.mem_map.mp hid
    have hdistinct := (h.consistent.batches publisher batch hbatch).distinct
    rw [List.map_append] at hdistinct
    rw [OutboxPublisher.row_of_writeAll hwrite (List.nodup_append.mp hdistinct).1 hchanged]
    exact (h.copied publisher batch hbatch changed (List.mem_append_left _ hchanged)).symm
  · rw [OutboxPublisher.row_of_writeAll_other hwrite hid]
    exact h.mirrored id

theorem handed_publish {publisher : String} {sent : Bool} {now : Int}
    {event : OutboxPublisher.OutboxEventEntity} {batch batch' : OutboxPublisher.Batch}
    (hbatch : world.outbox.publishers publisher = some batch)
    (hpublish : batch.publish sent now = some (event, batch')) :
    handed S world.outbox (.publish publisher sent now) =
      (S.readTree event.payloadJson).map fun payload =>
        { event := announcementOf event
          payload := payload } := by
  obtain ⟨rest, hpending, _⟩ := OutboxPublisher.publish_cases hpublish
  simp only [handed, head, hbatch, Option.bind_some, hpending, List.head?_cons]

theorem carries_of_handed (h : Sound S world) {event : OutboxPublisher.Event}
    {message : Message} (hhanded : handed S world.outbox event = some message) :
    Carries S world.db message := by
  obtain ⟨first, hhead, hread⟩ := Option.bind_eq_some_iff.mp hhanded
  obtain ⟨payload, htree, rfl⟩ := Option.map_eq_some_iff.mp hread
  refine ⟨?_, htree⟩
  cases event with
  | publish publisher sent now =>
      obtain ⟨batch, hbatch, hpending⟩ := Option.bind_eq_some_iff.mp hhead
      exact h.copied publisher batch hbatch first
        (List.mem_append_right _ (List.mem_of_head? hpending))
  | create | begin | commit | rollback => cases hhead

theorem sound_of_publisher (h : Sound S world) {event : OutboxPublisher.Event}
    (hstep : step S world (.publisher event) = some next) : Sound S next := by
  obtain ⟨hadmits, hsome⟩ := Option.ite_none_right_eq_some.mp hstep
  obtain ⟨outbox, houtbox, rfl⟩ := Option.map_eq_some_iff.mp hsome
  have hconsistent := OutboxPublisher.consistent_step h.consistent houtbox
  have hsent : ∀ message ∈ world.sent ++ (handed S world.outbox event).toList,
      Carries S world.db message := by
    intro message hmem
    rcases List.mem_append.mp hmem with hold | hnew
    · exact h.sent message hold
    · exact carries_of_handed h (Option.mem_toList.mp hnew)
  have hreached : ∀ id ∈ world.outbox.sent, ∃ message ∈
      world.sent ++ (handed S world.outbox event).toList, message.event.id = id := by
    intro id hid
    obtain ⟨message, hmem, hsame⟩ := h.reached id hid
    exact ⟨message, List.mem_append_left _ hmem, hsame⟩
  cases event with
  | create => cases hadmits
  | begin publisher now =>
      simp only [OutboxPublisher.step] at houtbox
      split at houtbox
      · cases houtbox
      · obtain rfl := Option.some.inj houtbox
        refine ⟨h.listeners, hconsistent, h.mirrored, copies_update h.copied ?_, hsent,
          hreached⟩
        rintro batch ⟨⟩ event hevent
        exact stands_of_row h (Table.mem_of_mem_select _ _ _ hevent).1
  | publish publisher sent now =>
      simp only [OutboxPublisher.step] at houtbox
      split at houtbox
      · cases houtbox
      · rename_i event batch hpublish
        obtain rfl := Option.some.inj houtbox
        obtain ⟨before, hbefore, hbatch⟩ := Option.bind_eq_some_iff.mp hpublish
        refine ⟨h.listeners, hconsistent, h.mirrored, copies_update h.copied ?_, hsent, ?_⟩
        · rintro _ ⟨⟩
          exact copies_of_publish (h.copied publisher before hbefore) hbatch
        · cases sent with
          | false => exact hreached
          | true =>
              intro id hid
              rcases List.mem_append.mp hid with hold | hlast
              · exact hreached id hold
              · obtain rfl := List.mem_singleton.mp hlast
                obtain ⟨message, hhanded⟩ := Option.isSome_iff_exists.mp hadmits
                have hsame := handed_publish (S := S) hbefore hbatch
                rw [hhanded] at hsame
                obtain ⟨_, _, rfl⟩ := Option.map_eq_some_iff.mp hsame.symm
                exact ⟨_, List.mem_append_right _ (Option.mem_toList.mpr hhanded), rfl⟩
  | commit publisher =>
      obtain ⟨batch, events, hbatch, hwrite, rfl⟩ := OutboxPublisher.commit_cases houtbox
      exact ⟨h.listeners, hconsistent, mirrored_of_commit h hbatch hwrite,
        copies_update h.copied (by simp), hsent, hreached⟩
  | rollback publisher =>
      obtain rfl := Option.some.inj houtbox
      exact ⟨h.listeners, hconsistent, h.mirrored, copies_update h.copied (by simp), hsent,
        hreached⟩

theorem sound_init (S : Setting) : Sound S World.init where
  listeners := .refl _
  consistent := OutboxPublisher.consistent_init
  mirrored := fun _ => rfl
  copied := by simp [World.init, OutboxPublisher.World.init]
  sent := by simp [World.init]
  reached := by simp [World.init, OutboxPublisher.World.init]

theorem sound_of_reachable (h : Reachable S world) : Sound S world := by
  refine h.invariant (sound_init S) fun before event after hbefore hstep => ?_
  cases event with
  | listener event nextAttemptAt createdAt => exact sound_of_listener hbefore hstep
  | publisher event => exact sound_of_publisher hbefore hstep

/-- `readTree` reads back what `writeValueAsString` has written of the stored messages. -/
def ReadsBack (S : Setting) (world : World) : Prop :=
  ∀ row ∈ world.db.outboxEvents.rows,
    S.readTree (S.writeValueAsString (messageJson row.payloadJson)) =
      some (messageJson row.payloadJson)

theorem message_of_carries (hreads : ReadsBack S world) {message : Message}
    (h : Carries S world.db message) :
    ∃ row ∈ world.db.outboxEvents.rows, S.message row = message := by
  obtain ⟨row, hrow, hstates⟩ := Option.map_eq_some_iff.mp h.stands
  have hmem := Table.mem_rows_of_row hrow
  have htree := h.tree
  rw [← hstates, Setting.announcement, hreads row hmem] at htree
  refine ⟨row, hmem, ?_⟩
  rw [Setting.message, hstates, Option.some.inj htree]

theorem announces_of_sent (h : Sound S world) (hreads : ReadsBack S world)
    {message : Message} (hsent : message ∈ world.sent) :
    ∃ row ∈ world.db.outboxEvents.rows, S.message row = message ∧
      ∃ userId, Announces world.db userId row := by
  obtain ⟨row, hmem, hmessage⟩ := message_of_carries hreads (h.sent message hsent)
  exact ⟨row, hmem, hmessage, announces_of_row h.listeners hmem⟩

/-- The row that announces a user under a key, and its way through the outbox: it says
the same there, and is marked published only if its message was sent. -/
structure Relayed (S : Setting) (world : World) (userId : UUID) (routingKey : String)
    (row : OutboxEventEntity) : Prop where
  stored : row ∈ world.db.outboxEvents.rows
  key : row.routingKey = routingKey
  announces : Announces world.db userId row
  only : ∀ other ∈ world.db.outboxEvents.rows, other.routingKey = routingKey →
    Announces world.db userId other → other = row
  kept : ∃ event, world.outbox.outboxEvents.row row.id = some event ∧
    announcementOf event = S.announcement row ∧
    (event.status = .published → S.message row ∈ world.sent)

theorem eq_of_announces (h : Sound S world) {userId : UUID} {row other : OutboxEventEntity}
    (hrow : row ∈ world.db.outboxEvents.rows) (hother : other ∈ world.db.outboxEvents.rows)
    (hannounces : Announces world.db userId row)
    (hannounces' : Announces world.db userId other)
    (hkey : other.routingKey = row.routingKey) : other = row := by
  have hpublished := (Activation.sound_of_reachable h.listeners).inv.published
  have honce := hpublished.once row.routingKey hannounces.routingKey userId hannounces.premium
  obtain ⟨first, hfirst⟩ := List.length_eq_one_iff.mp honce
  have hmem : ∀ event ∈ world.db.outboxEvents.rows, event.routingKey = row.routingKey →
      Announces world.db userId event → event = first := by
    intro event hevent hsame hstates
    have hfiltered : event ∈ announcements world.listeners.shared.db row.routingKey
        userId.toString := by
      refine List.mem_filter.mpr ⟨hevent, decide_eq_true ⟨hsame, ?_⟩⟩
      rw [hstates.payload]
    rw [hfirst] at hfiltered
    exact List.mem_singleton.mp hfiltered
  rw [hmem row hrow rfl hannounces, hmem other hother hkey hannounces']

theorem kept_of_row (h : Sound S world) (hreads : ReadsBack S world)
    {row : OutboxEventEntity} (hrow : row ∈ world.db.outboxEvents.rows) :
    ∃ event, world.outbox.outboxEvents.row row.id = some event ∧
      announcementOf event = S.announcement row ∧
      (event.status = .published → S.message row ∈ world.sent) := by
  have hstored := (Table.mem_rows_iff _ _).mp hrow
  have hmirrored := h.mirrored row.id
  rw [hstored, Option.map_some] at hmirrored
  obtain ⟨event, hevent, hstates⟩ := Option.map_eq_some_iff.mp hmirrored
  refine ⟨event, hevent, hstates, fun hstatus => ?_⟩
  have hsent := h.consistent.published row.id ⟨event, hevent, hstatus⟩
  obtain ⟨message, hmem, hid⟩ := h.reached row.id hsent
  obtain ⟨other, hother, rfl⟩ := message_of_carries hreads (h.sent message hmem)
  obtain rfl := Table.eq_of_key hother hrow hid
  exact hmem

theorem relayed_of_row (h : Sound S world) (hreads : ReadsBack S world) {userId : UUID}
    {row : OutboxEventEntity} (hrow : row ∈ world.db.outboxEvents.rows)
    (hannounces : Announces world.db userId row) :
    Relayed S world userId row.routingKey row where
  stored := hrow
  key := rfl
  announces := hannounces
  only := fun _ hother hkey hother' => eq_of_announces h hrow hother hannounces hother' hkey
  kept := kept_of_row h hreads hrow

theorem relayed_of_premium (h : Sound S world) (hreads : ReadsBack S world)
    {userId : UUID} (hpremium : Premium world.db userId) {routingKey : String}
    (hkey : routingKey ∈ premiumKeys) : ∃ row, Relayed S world userId routingKey row := by
  have hpublished := (Activation.sound_of_reachable h.listeners).inv.published
  obtain ⟨row, hsingle⟩ :=
    List.length_eq_one_iff.mp (hpublished.once routingKey hkey userId hpremium)
  have hmem : row ∈ announcements world.listeners.shared.db routingKey userId.toString := by
    rw [hsingle]
    exact List.mem_singleton_self row
  obtain ⟨hrow, hstates⟩ := List.mem_filter.mp hmem
  obtain ⟨rfl, hid⟩ := of_decide_eq_true hstates
  obtain ⟨other, hannounces⟩ := announces_of_row h.listeners hrow
  have hsame : other = userId := by
    rw [hannounces.payload] at hid
    exact toString_injective hid
  exact ⟨row, relayed_of_row h hreads hrow (hsame ▸ hannounces)⟩

/-- However the listeners and the instances interleave, and however often an event is sent
again: each premium user has one announcement under each key, which stays in the outbox as
it was stored and is marked published only once its message was handed over, and nothing
else is handed over. -/
theorem premium_announced_once (h : Reachable S world) (hreads : ReadsBack S world) :
    (∀ userId, Premium world.db userId → ∀ routingKey ∈ premiumKeys,
      ∃ row, Relayed S world userId routingKey row) ∧
    ∀ message ∈ world.sent, ∃ userId row,
      Relayed S world userId message.event.routingKey row ∧ S.message row = message := by
  have hsound := sound_of_reachable h
  refine ⟨fun userId hpremium routingKey hkey =>
    relayed_of_premium hsound hreads hpremium hkey, fun message hsent => ?_⟩
  obtain ⟨row, hrow, rfl, userId, hannounces⟩ := announces_of_sent hsound hreads hsent
  exact ⟨userId, row, relayed_of_row hsound hreads hrow hannounces, rfl⟩

end Outbox

section Sample

mutual

/-- The text of a value whose strings need no escape. -/
def sampleText : Json → String
  | .null => "null"
  | .bool value => if value then "true" else "false"
  | .number _ => "0"
  | .string value => "\"" ++ value ++ "\""
  | .array _ => "[]"
  | .object members => "\x7b" ++ sampleMembers members ++ "\x7d"

def sampleMembers : List (String × Json) → String
  | [] => ""
  | [(name, value)] => "\"" ++ name ++ "\":" ++ sampleText value
  | (name, value) :: members =>
      "\"" ++ name ++ "\":" ++ sampleText value ++ "," ++ sampleMembers members

end

/-- A reader at the texts of these values. -/
def sampleRead (values : List Json) (text : String) : Option Json :=
  values.find? fun value => sampleText value = text

theorem sampleRead_of_mem {values : List Json} (hnodup : (values.map sampleText).Nodup)
    {value : Json} (h : value ∈ values) :
    sampleRead values (sampleText value) = some value :=
  Table.find?_key hnodup h

def sampleMessage (type source messageId causationId userId : String) :
    PremiumMessage where
  schemaVersion := "1.0.0"
  messageId := messageId
  correlationId := "c-1"
  causationId := causationId
  occurredAt := "2026-01-01T00:00:00Z"
  type := type
  source := source
  payload :=
    { id := userId
      isPremium := true }

/-- The messages of an activation that draws the ids of `sampleCalls`. -/
def sampleMessages (causationId userId : String) : List PremiumMessage :=
  [sampleMessage "membership.premium-activated" "membership-service"
      "33333333-3333-3333-3333-333333333333" causationId userId,
    sampleMessage "user.premium-updated" "user-service"
      "66666666-6666-6666-6666-666666666666" causationId userId]

def sampleSetting (messages : List PremiumMessage) : Setting where
  writeValueAsString := sampleText
  readTree := sampleRead (messages.map messageJson)
  maxBatchSize := 50

def sampleRelay : Setting :=
  sampleSetting (sampleMessages "m-1" "00000000-0000-0000-0000-000000000000")

/-- A listener makes a user premium; two instances send both announcements. -/
def sampleEvents : List Event :=
  (.start 0 (Activation.sampleConfirmed "payment-1" "m-1") ::
    Activation.sampleCalls 0 10).map (fun event => .listener event (fun _ => 0) fun _ => 0) ++
  [.publisher (.begin "first" 1), .publisher (.begin "second" 1),
    .publisher (.publish "first" true 2), .publisher (.publish "second" false 2),
    .publisher (.publish "first" true 3), .publisher (.commit "first")]

theorem premium_announced_once_sample : ∃ world, Reachable sampleRelay world ∧
    world.sent.length = 3 ∧
    (∃ row, Relayed sampleRelay world (Activation.sampleUuid 0) "user.premium-updated" row) ∧
    ∀ message ∈ world.sent, ∃ userId row,
      Relayed sampleRelay world userId message.event.routingKey row ∧
        sampleRelay.message row = message := by
  have hreplay : ((StepSystem.replay (step sampleRelay) World.init sampleEvents).map
      fun world => (world.sent.length, (world.db.memberships.row
        (Activation.sampleUuid 0)).map (·.premium),
        world.db.outboxEvents.rows.map OutboxEventEntity.payloadJson)) =
        some (3, some true,
          sampleMessages "m-1" "00000000-0000-0000-0000-000000000000") := by
    decide +kernel
  obtain ⟨world, hworld, hcounts⟩ := Option.map_eq_some_iff.mp hreplay
  obtain ⟨hlength, hrest⟩ := Prod.mk.inj hcounts
  obtain ⟨hpremium, hrows⟩ := Prod.mk.inj hrest
  have hreach : Reachable sampleRelay world :=
    (StepSystem.run_of_replay hworld).reachable
  have hreads : ReadsBack sampleRelay world := by
    intro row hrow
    have hmem := List.mem_map_of_mem (f := OutboxEventEntity.payloadJson) hrow
    rw [hrows] at hmem
    refine sampleRead_of_mem ?_ (List.mem_map_of_mem hmem)
    decide +kernel
  obtain ⟨hannounced, hsent⟩ := premium_announced_once hreach hreads
  exact ⟨world, hreach, hlength, hannounced _ hpremium _ (by simp [premiumKeys]), hsent⟩

end Sample

end Modularis.Membership.Relay
