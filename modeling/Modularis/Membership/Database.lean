import Mathlib.Data.List.Forall2
import Modularis.Foundation.Column
import Modularis.Foundation.Table
import Modularis.Shared.Uuid

namespace Modularis.Membership.Database

open Modularis.Foundation
open Modularis.Foundation.Column
open Modularis.Shared.Uuid

/-- A row of `memberships`. -/
structure UserEntity where
  id : UUID
  premium : Bool
deriving DecidableEq

/-- A row of `consumed_message_receipts`. -/
structure ConsumedMessageReceiptEntity where
  messageId : String
  consumerName : String
  eventType : String
  correlationId : String
deriving DecidableEq, Repr

/-- The user whom an announcement is about. -/
structure UserPremiumUpdatedEventPayload where
  id : String
  isPremium : Bool
deriving DecidableEq, Repr

/-- The JSON of both outbox payloads. -/
structure PremiumMessage where
  schemaVersion : String
  messageId : String
  correlationId : String
  causationId : String
  occurredAt : String
  type : String
  source : String
  payload : UserPremiumUpdatedEventPayload
deriving DecidableEq, Repr

/-- A row of `outbox_events`, as a transaction stores it. -/
structure OutboxEventEntity where
  id : UUID
  routingKey : String
  correlationId : String
  causationId : String
  payloadJson : PremiumMessage
deriving DecidableEq

/-- The tables that the listener writes. -/
structure MembershipDatabase where
  memberships : Table UserEntity.id
  consumedMessageReceipts : Table ConsumedMessageReceiptEntity.messageId
  outboxEvents : Table OutboxEventEntity.id

/-- No rows. -/
def MembershipDatabase.empty : MembershipDatabase where
  memberships := Table.empty
  consumedMessageReceipts := Table.empty
  outboxEvents := Table.empty

/-- What the end of the transaction does with a saved object: insert it, update
the row that it was loaded from, or overwrite a row that it was not loaded
from. -/
inductive Saved where
  | insert
  | update
  | overwrite
deriving DecidableEq, Repr

/-- `save` of an object that was not loaded looks its row up first: without a row the object
is inserted, otherwise it overwrites the row. -/
def merge {ρ : Type} (row : Option ρ) : Saved :=
  match row with
  | none => .insert
  | some _ => .overwrite

/-- What the `varchar` columns keep of the receipt. -/
def ConsumedMessageReceiptEntity.stored (receipt : ConsumedMessageReceiptEntity) :
    Option ConsumedMessageReceiptEntity := do
  let messageId ← varchar 64 receipt.messageId
  let consumerName ← varchar 120 receipt.consumerName
  let eventType ← varchar 120 receipt.eventType
  let correlationId ← varchar 64 receipt.correlationId
  some
    { messageId := messageId
      consumerName := consumerName
      eventType := eventType
      correlationId := correlationId }

/-- What the columns keep of the event; the payload is a `text`, and JSON writes every
control character as an escape. -/
def OutboxEventEntity.stored (event : OutboxEventEntity) : Option OutboxEventEntity := do
  let routingKey ← varchar 128 event.routingKey
  let correlationId ← varchar 64 event.correlationId
  let causationId ← varchar 64 event.causationId
  some
    { event with
      routingKey := routingKey
      correlationId := correlationId
      causationId := causationId }

/-- Overwriting a receipt clears `processed_at`, which must not be null. -/
def MembershipDatabase.writeReceipt (db : MembershipDatabase)
    (receipt : ConsumedMessageReceiptEntity) (saved : Saved) :
    Option MembershipDatabase :=
  receipt.stored.bind fun receipt =>
    if saved = .insert ∧ db.consumedMessageReceipts.row receipt.messageId = none then
      some { db with
        consumedMessageReceipts := db.consumedMessageReceipts.insertIfAbsent receipt }
    else none

/-- The user with another status. -/
def setPremium (premium : Bool) (user : UserEntity) : UserEntity :=
  { user with premium := premium }

/-- Overwriting a membership clears `created_at`, which must not be null. -/
def MembershipDatabase.writeMembership (db : MembershipDatabase)
    (user : UserEntity) : Saved → Option MembershipDatabase
  | .insert =>
      match db.memberships.row user.id with
      | none =>
          some { db with memberships := db.memberships.insertIfAbsent user }
      | some _ => none
  | .update =>
      match db.memberships.row user.id with
      | none => none
      | some _ =>
          some { db with
            memberships := db.memberships.modify user.id (setPremium user.premium)
              fun _ => rfl }
  | .overwrite => none

/-- An event is always inserted. -/
def MembershipDatabase.writeOutboxEvent (db : MembershipDatabase)
    (event : OutboxEventEntity) : Option MembershipDatabase :=
  event.stored.bind fun event =>
    if db.outboxEvents.row event.id = none then
      some { db with outboxEvents := db.outboxEvents.insertIfAbsent event }
    else none

/-- The events in the order in which they were saved. -/
def MembershipDatabase.writeOutboxEvents (db : MembershipDatabase) :
    List OutboxEventEntity → Option MembershipDatabase
  | [] => some db
  | event :: rest => (db.writeOutboxEvent event).bind (·.writeOutboxEvents rest)

/-- What a transaction has saved. -/
structure Writes where
  receipt : ConsumedMessageReceiptEntity
  receiptSaved : Saved
  membership : Option (UserEntity × Saved)
  outboxEvents : List OutboxEventEntity

/-- `none` is a violated constraint, which rolls everything back. -/
def MembershipDatabase.flush (db : MembershipDatabase) (writes : Writes) :
    Option MembershipDatabase :=
  (db.writeReceipt writes.receipt writes.receiptSaved).bind fun db =>
    (match writes.membership with
      | none => some db
      | some (user, saved) => db.writeMembership user saved).bind
        (·.writeOutboxEvents writes.outboxEvents)

/-- The rows that the columns keep of the events. -/
abbrev StoredAs (events rows : List OutboxEventEntity) : Prop :=
  List.Forall₂ (fun event row => event.stored = some row) events rows

section Specifications

variable {db db' : MembershipDatabase}

theorem OutboxEventEntity.stored_eq_some_iff {event row : OutboxEventEntity} :
    event.stored = some row ↔ row.id = event.id ∧
      varchar 128 event.routingKey = some row.routingKey ∧
      varchar 64 event.correlationId = some row.correlationId ∧
      varchar 64 event.causationId = some row.causationId ∧
      row.payloadJson = event.payloadJson := by
  obtain ⟨id, routingKey, correlationId, causationId, payloadJson⟩ := row
  simp only [OutboxEventEntity.stored, Option.bind_eq_bind, Option.bind_eq_some_iff,
    Option.some.injEq, OutboxEventEntity.mk.injEq]
  constructor
  · rintro ⟨_, hkey, _, hcorrelation, _, hcausation, rfl, rfl, rfl, rfl, rfl⟩
    exact ⟨rfl, hkey, hcorrelation, hcausation, rfl⟩
  · rintro ⟨rfl, hkey, hcorrelation, hcausation, rfl⟩
    exact ⟨_, hkey, _, hcorrelation, _, hcausation, rfl, rfl, rfl, rfl, rfl⟩

theorem writeReceipt_some {receipt : ConsumedMessageReceiptEntity} {saved : Saved}
    (h : db.writeReceipt receipt saved = some db') :
    db'.memberships = db.memberships ∧ db'.outboxEvents = db.outboxEvents := by
  obtain ⟨row, _, hrow⟩ := Option.bind_eq_some_iff.mp h
  obtain ⟨_, hdb⟩ := Option.ite_none_right_eq_some.mp hrow
  obtain rfl := Option.some.inj hdb
  exact ⟨rfl, rfl⟩

theorem writeOutboxEvents_some {events : List OutboxEventEntity}
    (h : db.writeOutboxEvents events = some db') :
    db'.memberships = db.memberships ∧ ∃ rows, StoredAs events rows ∧
      db'.outboxEvents.rows = db.outboxEvents.rows ++ rows := by
  induction events generalizing db with
  | nil =>
      obtain rfl := Option.some.inj h
      exact ⟨rfl, [], .nil, (List.append_nil _).symm⟩
  | cons event rest ih =>
      obtain ⟨written, hwritten, hrest⟩ := Option.bind_eq_some_iff.mp h
      obtain ⟨row, hrow, hinserted⟩ := Option.bind_eq_some_iff.mp hwritten
      obtain ⟨hnew, hdb⟩ := Option.ite_none_right_eq_some.mp hinserted
      obtain rfl := Option.some.inj hdb
      obtain ⟨hmemberships, rows, hstored, hrows⟩ := ih hrest
      refine ⟨hmemberships, row :: rows, .cons hrow hstored, ?_⟩
      rw [hrows, Table.rows_insertIfAbsent_of_none hnew]
      simp

theorem flush_receipt {receipt : ConsumedMessageReceiptEntity} {saved : Saved}
    (h : db.flush ⟨receipt, saved, none, []⟩ = some db') :
    db'.memberships = db.memberships ∧
      db'.outboxEvents.rows = db.outboxEvents.rows := by
  obtain ⟨written, hwritten, hrest⟩ := Option.bind_eq_some_iff.mp h
  obtain ⟨hmemberships, houtbox⟩ := writeReceipt_some hwritten
  obtain rfl := Option.some.inj hrest
  exact ⟨hmemberships, by rw [houtbox]⟩

theorem flush_new {receipt : ConsumedMessageReceiptEntity} {saved : Saved}
    {user : UserEntity} {row : Option UserEntity} {events : List OutboxEventEntity}
    (h : db.flush ⟨receipt, saved, some (user, merge row), events⟩ = some db') :
    db.memberships.row user.id = none ∧
      db'.memberships = db.memberships.insertIfAbsent user ∧
      ∃ rows, StoredAs events rows ∧
        db'.outboxEvents.rows = db.outboxEvents.rows ++ rows := by
  obtain ⟨written, hwritten, hrest⟩ := Option.bind_eq_some_iff.mp h
  obtain ⟨hmemberships, houtbox⟩ := writeReceipt_some hwritten
  obtain ⟨saved, hsaved, hevents⟩ := Option.bind_eq_some_iff.mp hrest
  cases row with
  | some row => cases hsaved
  | none =>
      simp only [merge, MembershipDatabase.writeMembership] at hsaved
      split at hsaved
      · rename_i hnew
        obtain rfl := Option.some.inj hsaved
        obtain ⟨hkept, rows, hstored, hrows⟩ := writeOutboxEvents_some hevents
        rw [hmemberships] at hnew hkept
        rw [houtbox] at hrows
        exact ⟨hnew, hkept, rows, hstored, hrows⟩
      · cases hsaved

end Specifications

end Modularis.Membership.Database
