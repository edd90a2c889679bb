import Modularis.Foundation.Column
import Modularis.Foundation.Table
import Modularis.Shared.Messaging

/-!
The Postgres store of webhook receipts.  Each function is one transaction and
`now` is its `NOW()`.  Times are nanoseconds; what a caller passes for a
`TIMESTAMPTZ` column is cut to microseconds.
-/

namespace Modularis.Webhook.ReceiptStore

open Modularis.Foundation
open Modularis.Foundation.Column
open Modularis.Shared.Messaging

/-- The values of `publish_status`. -/
inductive PublishStatus where
  | pending
  | inFlight
  | published
deriving DecidableEq, Repr

/-- What `Register` is called with. -/
structure ReceiptRegistration where
  dedupeKey : String
  paymentReference : String
  paymentStatus : String
  providerEventId : String
  correlationId : String
  messageId : String
  routingKey : String
  payloadJson : Envelope PaymentCallbackConfirmedPayload
deriving DecidableEq, Repr

/-- What `Register` returns. -/
structure RegistrationResult where
  accepted : Bool
  publishStatus : PublishStatus
deriving DecidableEq, Repr

/-- The columns that `ClaimPending` hands out. -/
structure Receipt where
  dedupeKey : String
  routingKey : String
  payloadJson : Envelope PaymentCallbackConfirmedPayload
  correlationId : String
  messageId : String
  attempts : Nat
deriving DecidableEq, Repr

/-- A row of `webhook_receipts`. -/
structure ReceiptRow where
  dedupeKey : String
  paymentReference : String
  paymentStatus : String
  providerEventId : String
  correlationId : String
  messageId : String
  routingKey : String
  payloadJson : Envelope PaymentCallbackConfirmedPayload
  publishStatus : PublishStatus
  attempts : Nat
  nextAttemptAt : Int
  lockedBy : Option String
  lockedUntil : Option Int
  lastError : Option String
  duplicateCount : Nat
  publishedAt : Option Int
  createdAt : Int
  updatedAt : Int
deriving DecidableEq, Repr

/-- The table `webhook_receipts`. -/
abbrev Receipts := Table ReceiptRow.dedupeKey

/-- The value that a `TIMESTAMPTZ` column keeps of a time. -/
def timestamptz (time : Int) : Int := time - time % 1000

/-- The row that the `INSERT` of `Register` writes; the remaining columns take
their defaults. -/
def pendingRow (input : ReceiptRegistration) (now : Int) : ReceiptRow where
  dedupeKey := input.dedupeKey
  paymentReference := input.paymentReference
  paymentStatus := input.paymentStatus
  providerEventId := input.providerEventId
  correlationId := input.correlationId
  messageId := input.messageId
  routingKey := input.routingKey
  payloadJson := input.payloadJson
  publishStatus := .pending
  attempts := 0
  nextAttemptAt := now
  lockedBy := none
  lockedUntil := none
  lastError := none
  duplicateCount := 0
  publishedAt := none
  createdAt := now
  updatedAt := now

/-- The values of the columns of type `TEXT`, `payload_json` aside: its JSON writes
`U+0000` as an escape. -/
def ReceiptRegistration.texts (input : ReceiptRegistration) : List String :=
  [input.dedupeKey, input.paymentReference, input.providerEventId, input.correlationId,
    input.messageId, input.routingKey]

/-- What the columns keep of the input.  Postgres refuses a value before it looks for a
conflict. -/
def ReceiptRegistration.stored (input : ReceiptRegistration) : Option ReceiptRegistration :=
  if input.texts.all isText then
    (varchar 32 input.paymentStatus).map fun paymentStatus =>
      { input with paymentStatus := paymentStatus }
  else none

/-- The row already has what a unique index forbids the input to repeat:
`(payment_reference, payment_status)`, or a `provider_event_id` that is not
empty. -/
def clashes (input : ReceiptRegistration) (row : ReceiptRow) : Bool :=
  decide (row.paymentReference = input.paymentReference ∧
      row.paymentStatus = input.paymentStatus) ||
    decide (input.providerEventId ≠ "" ∧
      row.providerEventId = input.providerEventId)

/-- The unique indexes have a place for the input.  `indexable` says which values Postgres
takes into one index row; its limit of 2704 bytes is one on the compressed row. -/
def indexed (indexable : List String → Bool) (input : ReceiptRegistration) : Bool :=
  indexable [input.dedupeKey] &&
    indexable [input.paymentReference, input.paymentStatus] &&
    (decide (input.providerEventId = "") || indexable [input.providerEventId])

/-- A row of at most 600 characters is indexed: they take no more than 2400 bytes. -/
def sampleIndexable (row : List String) : Bool :=
  decide ((row.flatMap String.toList).length ≤ 600)

/-- The row has met one more repetition. -/
def countDuplicate (now : Int) (row : ReceiptRow) : ReceiptRow :=
  { row with
    duplicateCount := row.duplicateCount + 1
    updatedAt := now }

theorem key_countDuplicate (now : Int) (row : ReceiptRow) :
    (countDuplicate now row).dedupeKey = row.dedupeKey := rfl

/-- `none` is an error of Postgres: the transaction is rolled back.  The conflict clause
looks at the primary key alone and before the other indexes. -/
def register (indexable : List String → Bool) (receipts : Receipts)
    (input : ReceiptRegistration) (now : Int) : Option RegistrationResult × Receipts :=
  match input.stored with
  | none => (none, receipts)
  | some stored =>
      match receipts.row input.dedupeKey with
      | some row =>
          -- `duplicate_count` is an `INTEGER`.
          if row.duplicateCount < 2147483647 then
            (some { accepted := false, publishStatus := row.publishStatus },
              receipts.modify input.dedupeKey (countDuplicate now)
                (key_countDuplicate _))
          else (none, receipts)
      | none =>
          if receipts.rows.any (clashes stored) = true ∨ indexed indexable stored = false then
            (none, receipts)
          else
            (some { accepted := true, publishStatus := .pending },
              receipts.insertIfAbsent (pendingRow stored now))

theorem stored_cases {input stored : ReceiptRegistration} (h : input.stored = some stored) :
    ∃ paymentStatus, varchar 32 input.paymentStatus = some paymentStatus ∧
      stored = { input with paymentStatus := paymentStatus } := by
  obtain ⟨_, hstatus⟩ := Option.ite_none_right_eq_some.mp h
  obtain ⟨paymentStatus, hvarchar, rfl⟩ := Option.map_eq_some_iff.mp hstatus
  exact ⟨paymentStatus, hvarchar, rfl⟩

theorem dedupeKey_of_stored {input stored : ReceiptRegistration}
    (h : input.stored = some stored) : stored.dedupeKey = input.dedupeKey := by
  obtain ⟨_, _, rfl⟩ := stored_cases h
  rfl

/-- `locked_until IS NULL OR locked_until < NOW()`. -/
def leaseOver (now : Int) : Option Int → Bool
  | none => true
  | some lockedUntil => decide (lockedUntil < now)

/-- The `WHERE` clause of `ClaimPending`. -/
def claimable (now : Int) (row : ReceiptRow) : Bool :=
  decide (row.publishStatus = .pending) && decide (row.nextAttemptAt ≤ now) &&
    leaseOver now row.lockedUntil

/-- The row is claimed by a relay. -/
def markInFlight (lockOwner : String) (lockUntil now : Int)
    (row : ReceiptRow) : ReceiptRow :=
  { row with
    publishStatus := .inFlight
    lockedBy := some lockOwner
    lockedUntil := some (timestamptz lockUntil)
    updatedAt := now }

theorem key_markInFlight (lockOwner : String) (lockUntil now : Int)
    (row : ReceiptRow) :
    (markInFlight lockOwner lockUntil now row).dedupeKey = row.dedupeKey := rfl

/-- The `RETURNING` clause of `ClaimPending`. -/
def returning (row : ReceiptRow) : Receipt where
  dedupeKey := row.dedupeKey
  routingKey := row.routingKey
  payloadJson := row.payloadJson
  correlationId := row.correlationId
  messageId := row.messageId
  attempts := row.attempts

/-- The rows that `ClaimPending` takes, oldest first.  `skipLocked` holds of the
keys whose row another transaction has locked at that moment. -/
def candidates (receipts : Receipts) (limit : Nat) (skipLocked : String → Bool)
    (now : Int) : List ReceiptRow :=
  receipts.select (fun row => claimable now row && !skipLocked row.dedupeKey)
    (fun a b => a.createdAt ≤ b.createdAt) limit

/-- The oldest pending rows that are due, up to a limit, are claimed and returned. -/
def claimPending (receipts : Receipts) (lockOwner : String) (lockUntil : Int)
    (limit : Nat) (skipLocked : String → Bool) (now : Int) :
    List Receipt × Receipts :=
  let rows := candidates receipts limit skipLocked now
  (rows.map returning,
    receipts.modifyAll (rows.map ReceiptRow.dedupeKey)
      (markInFlight lockOwner lockUntil now) (key_markInFlight _ _ _))

/-- The `WHERE` clause of `MarkPublished` and `RetryPending` besides the key. -/
def inFlightOf (lockOwner : String) (row : ReceiptRow) : Bool :=
  decide (row.publishStatus = .inFlight) && decide (row.lockedBy = some lockOwner)

/-- An `UPDATE` of the row under a key that is in flight for the owner. -/
def settle (lockOwner : String) (update : ReceiptRow → ReceiptRow)
    (row : ReceiptRow) : ReceiptRow :=
  if inFlightOf lockOwner row then update row else row

/-- The columns that `MarkPublished` sets. -/
def setPublished (now : Int) (row : ReceiptRow) : ReceiptRow :=
  { row with
    publishStatus := .published
    publishedAt := some now
    lastError := none
    lockedBy := none
    lockedUntil := none
    updatedAt := now }

/-- The columns that `RetryPending` sets. -/
def setRetry (nextAttemptAt : Int) (lastError : String) (now : Int)
    (row : ReceiptRow) : ReceiptRow :=
  { row with
    publishStatus := .pending
    attempts := row.attempts + 1
    nextAttemptAt := timestamptz nextAttemptAt
    lastError := some lastError
    lockedBy := none
    lockedUntil := none
    updatedAt := now }

theorem key_settle {update : ReceiptRow → ReceiptRow} (lockOwner : String)
    (hupdate : ∀ row, (update row).dedupeKey = row.dedupeKey)
    (row : ReceiptRow) : (settle lockOwner update row).dedupeKey = row.dedupeKey := by
  unfold settle
  split
  · exact hupdate row
  · rfl

theorem key_setPublished (now : Int) (row : ReceiptRow) :
    (setPublished now row).dedupeKey = row.dedupeKey := rfl

theorem key_setRetry (nextAttemptAt : Int) (lastError : String) (now : Int)
    (row : ReceiptRow) :
    (setRetry nextAttemptAt lastError now row).dedupeKey = row.dedupeKey := rfl

/-- Only the relay that has claimed the row can mark it. -/
def markPublished (receipts : Receipts) (dedupeKey lockOwner : String)
    (now : Int) : Receipts :=
  receipts.modify dedupeKey (settle lockOwner (setPublished now))
    (key_settle lockOwner (key_setPublished now))

/-- Only the relay that has claimed the row can put it back. -/
def retryPending (receipts : Receipts) (dedupeKey lockOwner : String)
    (nextAttemptAt : Int) (lastError : String) (now : Int) : Receipts :=
  receipts.modify dedupeKey
    (settle lockOwner (setRetry nextAttemptAt lastError now))
    (key_settle lockOwner (key_setRetry nextAttemptAt lastError now))

end Modularis.Webhook.ReceiptStore
