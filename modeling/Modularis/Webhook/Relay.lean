import Modularis.Foundation.StepSystem
import Modularis.Shared.Durations
import Modularis.Webhook.ReceiptStore

/-!
Any number of relays and `Register` calls over one receipt store.  A pass is one
round of the loop of `Relay.Run`; its lock owner is fresh.  A step is one
transaction, one answer of the publisher, one failed call or one crash.
-/

namespace Modularis.Webhook.Relay

open Modularis.Foundation
open Modularis.Shared.Messaging
open Modularis.Shared.Durations
open Modularis.Webhook.ReceiptStore

/-- The configuration of the relay, with the values that Postgres takes into one row of an
index. -/
structure Config where
  relayLease : Int
  relayBatchSize : Nat
  publishDelay : Int
  publishBackoff : Int
  indexable : List String → Bool

/-- Where a pass stands.  `rest` are the claimed receipts whose turn has not
come. -/
inductive Pass where
  | unused
  | claiming (lockUntil : Int)
  | publishing (receipt : Receipt) (rest : List Receipt)
  | retrying (receipt : Receipt) (retryAt : Int) (error : String)
      (rest : List Receipt)
  | marking (receipt : Receipt) (rest : List Receipt)
  | ended
deriving DecidableEq, Repr

/-- `clock` is the time of the database. -/
structure World where
  receipts : Receipts
  passes : String → Pass
  clock : Int

/-- No receipt and no pass. -/
def World.init : World where
  receipts := Table.empty
  passes := fun _ => .unused
  clock := 0

/-- A relay is somewhere else. -/
def World.setPass (σ : World) (owner : String) (pass : Pass) : World :=
  { σ with passes := Function.update σ.passes owner pass }

/-- `now` is the `NOW()` of a transaction, the time at which it began, and
`relayClock` the clock of the relay's process. -/
inductive Event where
  | tick (clock : Int)
  | register (input : ReceiptRegistration) (now : Int)
  | wake (owner : String) (relayClock : Int)
  | claim (owner : String) (skipLocked : String → Bool) (now : Int)
  | publish (owner : String) (answer : Except String Unit) (relayClock : Int)
  | settle (owner : String) (now : Int)
  | fail (owner : String)
  | crash (owner : String)

/-- The clock after an event. -/
def Event.clockAfter (clock : Int) : Event → Int
  | .tick clock' => clock'
  | _ => clock

/-- The head of the `for` loop. -/
def nextReceipt : List Receipt → Pass
  | [] => .ended
  | receipt :: rest => .publishing receipt rest

/-- How the body of the loop goes on with the answer of `Publish`. -/
def afterPublish (cfg : Config) (receipt : Receipt) (rest : List Receipt)
    (relayClock : Int) : Except String Unit → Pass
  | .error error =>
      .retrying receipt
        (relayClock +
          backoffDelay (receipt.attempts + 1) cfg.publishDelay cfg.publishBackoff)
        error rest
  | .ok _ => .marking receipt rest

/-- The transaction that settles the receipt of a pass, and how the pass goes
on.  The loop does so in the same way when the transaction fails. -/
def settlement (receipts : Receipts) (owner : String) (now : Int) :
    Pass → Option (Receipts × Pass)
  | .retrying receipt retryAt error rest =>
      some (retryPending receipts receipt.dedupeKey owner retryAt error now,
        nextReceipt rest)
  | .marking receipt rest =>
      some (markPublished receipts receipt.dedupeKey owner now, nextReceipt rest)
  | _ => none

/-- A transaction fails without effect. -/
def afterFailure : Pass → Option Pass
  | .claiming _ => some .ended
  | .retrying _ _ _ rest | .marking _ rest => some (nextReceipt rest)
  | _ => none

/-- `none` where a relay cannot take the step. -/
def step (cfg : Config) (σ : World) : Event → Option World
  | .tick clock => if σ.clock ≤ clock then some { σ with clock := clock } else none
  | .register input now =>
      if now ≤ σ.clock then
        some { σ with receipts := (register cfg.indexable σ.receipts input now).2 }
      else none
  | .wake owner relayClock =>
      match σ.passes owner with
      | .unused =>
          some (σ.setPass owner (.claiming (relayClock + cfg.relayLease)))
      | _ => none
  | .claim owner skipLocked now =>
      match σ.passes owner with
      | .claiming lockUntil =>
          if now ≤ σ.clock then
            let result := claimPending σ.receipts owner lockUntil
              cfg.relayBatchSize skipLocked now
            some (World.setPass { σ with receipts := result.2 } owner
              (nextReceipt result.1))
          else none
      | _ => none
  | .publish owner answer relayClock =>
      match σ.passes owner with
      | .publishing receipt rest =>
          some (σ.setPass owner (afterPublish cfg receipt rest relayClock answer))
      | _ => none
  | .settle owner now =>
      if now ≤ σ.clock then
        (settlement σ.receipts owner now (σ.passes owner)).map fun result =>
          World.setPass { σ with receipts := result.1 } owner result.2
      else none
  | .fail owner => (afterFailure (σ.passes owner)).map (σ.setPass owner)
  | .crash owner => some (σ.setPass owner .ended)

/-- The message that a step hands to the publisher. -/
def publishes (σ : World) : Event → Option Receipt
  | .publish owner _ _ =>
      match σ.passes owner with
      | .publishing receipt _ => some receipt
      | _ => none
  | _ => none

abbrev Run (cfg : Config) := StepSystem.Run (step cfg) World.init

abbrev Reachable (cfg : Config) := StepSystem.Reachable (step cfg) World.init

/-- What a step taken in `σ` can do to the row under a key. -/
inductive RowStep (cfg : Config) (σ : World) :
    Event → String → Option ReceiptRow → Option ReceiptRow → Prop
  | kept (e : Event) (key : String) (row : Option ReceiptRow) :
      RowStep cfg σ e key row row
  | inserted (input stored : ReceiptRegistration) (now : Int) : now ≤ σ.clock →
      input.stored = some stored →
      RowStep cfg σ (.register input now) input.dedupeKey none
        (some (pendingRow stored now))
  | counted (input : ReceiptRegistration) (now : Int) (row : ReceiptRow) :
      RowStep cfg σ (.register input now) input.dedupeKey (some row)
        (some (countDuplicate now row))
  | claimed {owner : String} {skipLocked : String → Bool} {now lockUntil : Int}
      {key : String} {row : ReceiptRow} :
      σ.passes owner = .claiming lockUntil → now ≤ σ.clock →
        row ∈ candidates σ.receipts cfg.relayBatchSize skipLocked now →
        RowStep cfg σ (.claim owner skipLocked now) key (some row)
          (some (markInFlight owner lockUntil now row))
  | published {owner : String} {receipt : Receipt} {rest : List Receipt}
      {row : ReceiptRow} (now : Int) : σ.passes owner = .marking receipt rest →
        inFlightOf owner row = true →
        RowStep cfg σ (.settle owner now) receipt.dedupeKey (some row)
          (some (setPublished now row))
  | retried {owner error : String} {receipt : Receipt} {retryAt : Int}
      {rest : List Receipt} {row : ReceiptRow} (now : Int) :
        σ.passes owner = .retrying receipt retryAt error rest →
        inFlightOf owner row = true →
        RowStep cfg σ (.settle owner now) receipt.dedupeKey (some row)
          (some (setRetry retryAt error now row))

section RowSteps

variable {cfg : Config} {σ : World}

theorem rowStep_register {input : ReceiptRegistration} {now : Int}
    (hnow : now ≤ σ.clock) (key : String) :
    RowStep cfg σ (.register input now) key (σ.receipts.row key)
      ((register cfg.indexable σ.receipts input now).2.row key) := by
  unfold register
  split
  · exact .kept _ _ _
  rename_i stored hstored
  split
  · rename_i row hrow
    split
    swap
    · exact .kept _ _ _
    rw [Table.row_modify]
    split
    · rename_i hkey
      rw [hkey, hrow]
      exact .counted input now row
    · exact .kept _ _ _
  · rename_i hrow
    split
    · exact .kept _ _ _
    · have hkeys : (pendingRow stored now).dedupeKey = input.dedupeKey :=
        dedupeKey_of_stored hstored
      rw [Table.row_insertIfAbsent_of_none (hkeys ▸ hrow), hkeys]
      split
      · rename_i hkey
        rw [hkey, hrow]
        exact .inserted input stored now hnow hstored
      · exact .kept _ _ _

theorem rowStep_claim {owner : String} {skipLocked : String → Bool}
    {now lockUntil : Int} (hpass : σ.passes owner = .claiming lockUntil)
    (hnow : now ≤ σ.clock) (key : String) :
    RowStep cfg σ (.claim owner skipLocked now) key (σ.receipts.row key)
      ((claimPending σ.receipts owner lockUntil cfg.relayBatchSize skipLocked
        now).2.row key) := by
  simp only [claimPending, Table.row_modifyAll]
  split
  · rename_i hkey
    obtain ⟨row, hmem, rfl⟩ := List.mem_map.mp hkey
    rw [(Table.mem_of_mem_select _ _ _ hmem).1]
    exact .claimed hpass hnow hmem
  · exact .kept _ _ _

theorem rowStep_modify_settle {owner dedupeKey : String} {update : ReceiptRow → ReceiptRow}
    {e : Event} (hkey : ∀ row, (settle owner update row).dedupeKey = row.dedupeKey)
    (hupdated : ∀ row, inFlightOf owner row = true →
      RowStep cfg σ e dedupeKey (some row) (some (update row))) (key : String) :
    RowStep cfg σ e key (σ.receipts.row key)
      ((σ.receipts.modify dedupeKey (settle owner update) hkey).row key) := by
  rw [Table.row_modify]
  split
  · rename_i heq
    subst heq
    cases hrow : σ.receipts.row key with
    | none => exact .kept _ _ _
    | some row =>
        rw [Option.map_some, settle]
        split
        · rename_i howner
          exact hupdated row howner
        · exact .kept _ _ _
  · exact .kept _ _ _

theorem rowStep_settle {owner : String} {now : Int} {result : Receipts × Pass}
    (hresult : settlement σ.receipts owner now (σ.passes owner) = some result)
    (key : String) :
    RowStep cfg σ (.settle owner now) key (σ.receipts.row key)
      (result.1.row key) := by
  cases hpass : σ.passes owner with
  | retrying receipt retryAt error rest =>
      rw [hpass] at hresult
      obtain rfl := Option.some.inj hresult
      exact rowStep_modify_settle (key_settle owner (key_setRetry retryAt error now))
        (fun row howner => .retried now hpass howner) key
  | marking receipt rest =>
      rw [hpass] at hresult
      obtain rfl := Option.some.inj hresult
      exact rowStep_modify_settle (key_settle owner (key_setPublished now))
        (fun row howner => .published now hpass howner) key
  | _ =>
      rw [hpass] at hresult
      cases hresult

theorem effect_of_step {e : Event} {σ' : World}
    (hstep : step cfg σ e = some σ') :
    (∀ key, RowStep cfg σ e key (σ.receipts.row key) (σ'.receipts.row key)) ∧
      σ'.clock = e.clockAfter σ.clock := by
  cases e with
  | tick clock =>
      obtain ⟨_, hσ⟩ := Option.ite_none_right_eq_some.mp hstep
      obtain rfl := Option.some.inj hσ
      exact ⟨fun _ => .kept _ _ _, rfl⟩
  | register input now =>
      obtain ⟨hnow, hσ⟩ := Option.ite_none_right_eq_some.mp hstep
      obtain rfl := Option.some.inj hσ
      exact ⟨rowStep_register hnow, rfl⟩
  | wake owner relayClock =>
      simp only [step] at hstep
      split at hstep
      · obtain rfl := Option.some.inj hstep
        exact ⟨fun _ => .kept _ _ _, rfl⟩
      · cases hstep
  | claim owner skipLocked now =>
      simp only [step] at hstep
      split at hstep
      · rename_i lockUntil hpass
        obtain ⟨hnow, hσ⟩ := Option.ite_none_right_eq_some.mp hstep
        obtain rfl := Option.some.inj hσ
        exact ⟨rowStep_claim hpass hnow, rfl⟩
      · cases hstep
  | publish owner answer relayClock =>
      simp only [step] at hstep
      split at hstep
      · obtain rfl := Option.some.inj hstep
        exact ⟨fun _ => .kept _ _ _, rfl⟩
      · cases hstep
  | settle owner now =>
      obtain ⟨_, hσ⟩ := Option.ite_none_right_eq_some.mp hstep
      obtain ⟨result, hresult, rfl⟩ := Option.map_eq_some_iff.mp hσ
      exact ⟨rowStep_settle hresult, rfl⟩
  | fail owner =>
      obtain ⟨_, _, rfl⟩ := Option.map_eq_some_iff.mp hstep
      exact ⟨fun _ => .kept _ _ _, rfl⟩
  | crash owner =>
      obtain rfl := Option.some.inj hstep
      exact ⟨fun _ => .kept _ _ _, rfl⟩

theorem clock_le_of_step {e : Event} {σ' : World}
    (hstep : step cfg σ e = some σ') : σ.clock ≤ σ'.clock := by
  rw [(effect_of_step hstep).2]
  cases e with
  | tick clock => exact (Option.ite_none_right_eq_some.mp hstep).1
  | _ => exact le_refl σ.clock

end RowSteps

end Modularis.Webhook.Relay
