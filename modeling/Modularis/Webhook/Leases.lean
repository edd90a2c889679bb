import Modularis.Webhook.Relay

namespace Modularis.Webhook.Leases

open Modularis.Foundation
open Modularis.Shared.Messaging
open Modularis.Webhook.ReceiptStore
open Modularis.Webhook.Relay

/-- The lease of a receipt, where it has one, and its retry time have passed. -/
def Due (now : Int) (row : ReceiptRow) : Prop :=
  (∀ lockedUntil, row.lockedUntil = some lockedUntil → lockedUntil < now) ∧
    row.nextAttemptAt ≤ now

/-- A `ClaimPending` at the present time, with room for every receipt and the
row not locked at that moment, hands the receipt out. -/
def Selected (σ : World) (key : String) : Prop :=
  ∀ lockOwner lockUntil limit skipLocked, σ.receipts.keys.length ≤ limit →
    skipLocked key = false →
    ∃ receipt ∈ (claimPending σ.receipts lockOwner lockUntil limit skipLocked
      σ.clock).1, receipt.dedupeKey = key

/-- No receipt is stranded. -/
def NoneStranded (σ : World) : Prop :=
  ∀ key row, σ.receipts.row key = some row → row.publishStatus ≠ .published →
    Due σ.clock row → Selected σ key

/-- The lease columns of a row, by its status. -/
def LeaseColumns (clock : Int) (row : ReceiptRow) : Prop :=
  match row.publishStatus with
  | .pending | .published => row.lockedBy = none ∧ row.lockedUntil = none
  | .inFlight =>
      row.lockedBy.isSome ∧ row.lockedUntil.isSome ∧ row.nextAttemptAt ≤ clock

theorem LeaseColumns.mono {clock clock' : Int} {row : ReceiptRow}
    (h : LeaseColumns clock row) (hclock : clock ≤ clock') :
    LeaseColumns clock' row := by
  cases hstatus : row.publishStatus with
  | pending | published => simpa only [LeaseColumns, hstatus] using h
  | inFlight =>
      simp only [LeaseColumns, hstatus] at h ⊢
      exact ⟨h.1, h.2.1, h.2.2.trans hclock⟩

theorem claimable_iff {now : Int} {row : ReceiptRow} :
    claimable now row = true ↔
      row.publishStatus = .pending ∧ row.nextAttemptAt ≤ now ∧
        leaseOver now row.lockedUntil = true := by
  simp [claimable, and_assoc]

theorem claimable_of_candidate {receipts : Receipts} {limit : Nat}
    {skipLocked : String → Bool} {now : Int} {row : ReceiptRow}
    (h : row ∈ candidates receipts limit skipLocked now) :
    claimable now row = true := by
  have hwanted := (Table.mem_of_mem_select _ _ _ h).2
  rw [Bool.and_eq_true] at hwanted
  exact hwanted.1

theorem leaseColumns_of_rowStep {cfg : Config} {σ : World} {e : Event}
    {key : String} {old new : Option ReceiptRow}
    (hrow : RowStep cfg σ e key old new)
    (hold : ∀ row, old = some row → LeaseColumns σ.clock row) :
    ∀ row, new = some row → LeaseColumns σ.clock row := by
  rintro row rfl
  generalize hnew : some row = new at hrow
  cases hrow with
  | kept => exact hold row hnew.symm
  | inserted =>
      obtain rfl := Option.some.inj hnew
      exact ⟨rfl, rfl⟩
  | counted _ _ before =>
      obtain rfl := Option.some.inj hnew
      exact hold before rfl
  | claimed _ hnow hmem =>
      obtain rfl := Option.some.inj hnew
      have hclaimable := claimable_iff.mp (claimable_of_candidate hmem)
      exact ⟨rfl, rfl, hclaimable.2.1.trans hnow⟩
  | published | retried =>
      obtain rfl := Option.some.inj hnew
      exact ⟨rfl, rfl⟩

/-- The lease columns of every stored receipt agree with its status. -/
def LeasesOk (σ : World) : Prop :=
  ∀ key row, σ.receipts.row key = some row → LeaseColumns σ.clock row

theorem leasesOk_step {cfg : Config} {σ σ' : World} {e : Event}
    (hok : LeasesOk σ) (hstep : step cfg σ e = some σ') : LeasesOk σ' := by
  intro key row hrow
  have hcolumns := leaseColumns_of_rowStep ((effect_of_step hstep).1 key)
    (hok key) row hrow
  exact hcolumns.mono (clock_le_of_step hstep)

theorem leasesOk_of_reachable {cfg : Config} {σ : World}
    (hreach : Reachable cfg σ) : LeasesOk σ := by
  refine hreach.invariant ?_ fun _ _ _ => leasesOk_step
  intro key row hrow
  cases hrow

/-- No lease has run out on a receipt in flight. -/
def LeasesRun (σ : World) : Prop :=
  ∀ key row, σ.receipts.row key = some row → row.publishStatus = .inFlight →
    ∀ lockedUntil, row.lockedUntil = some lockedUntil → σ.clock ≤ lockedUntil

theorem selected_of_claimable {σ : World} {key : String} {row : ReceiptRow}
    (hrow : σ.receipts.row key = some row)
    (hclaimable : claimable σ.clock row = true) : Selected σ key := by
  intro lockOwner lockUntil limit skipLocked hlimit hskip
  have hkey := σ.receipts.key_row key row hrow
  refine ⟨returning row, List.mem_map_of_mem ?_, hkey⟩
  refine Table.mem_select_of_le _ _ _ hlimit (hkey.symm ▸ hrow) ?_
  simp [hclaimable, hkey, hskip]

theorem claimable_of_selected {σ : World} {key : String} {row : ReceiptRow}
    (hrow : σ.receipts.row key = some row) (hselected : Selected σ key) :
    claimable σ.clock row = true := by
  obtain ⟨receipt, hmem, hkey⟩ :=
    hselected "" 0 σ.receipts.keys.length (fun _ => false) le_rfl rfl
  obtain ⟨row', hmem', rfl⟩ := List.mem_map.mp hmem
  have hrow' := (Table.mem_of_mem_select _ _ _ hmem').1
  rw [show row'.dedupeKey = key from hkey, hrow] at hrow'
  obtain rfl := Option.some.inj hrow'
  exact claimable_of_candidate hmem'

theorem claimable_of_due {now : Int} {row : ReceiptRow}
    (hpending : row.publishStatus = .pending) (hdue : Due now row) :
    claimable now row = true := by
  refine claimable_iff.mpr ⟨hpending, hdue.2, ?_⟩
  cases htime : row.lockedUntil with
  | none => rfl
  | some lockedUntil => exact decide_eq_true (hdue.1 lockedUntil htime)

theorem noneStranded_iff_leasesRun {σ : World} (hok : LeasesOk σ) :
    NoneStranded σ ↔ LeasesRun σ := by
  constructor
  · intro hnone key row hrow hstatus lockedUntil htime
    by_contra hover
    have hcolumns := hok key row hrow
    simp only [LeaseColumns, hstatus] at hcolumns
    have hdue : Due σ.clock row := by
      refine ⟨fun time heq => ?_, hcolumns.2.2⟩
      obtain rfl := Option.some.inj (htime.symm.trans heq)
      exact not_le.mp hover
    have hselected := hnone key row hrow (by simp [hstatus]) hdue
    have hpending := (claimable_iff.mp (claimable_of_selected hrow hselected)).1
    cases hstatus.symm.trans hpending
  · intro hrun key row hrow hstatus hdue
    refine selected_of_claimable hrow ?_
    cases hpublish : row.publishStatus with
    | pending => exact claimable_of_due hpublish hdue
    | published => exact absurd hpublish hstatus
    | inFlight =>
        have hcolumns := hok key row hrow
        simp only [LeaseColumns, hpublish] at hcolumns
        obtain ⟨lockedUntil, htime⟩ := Option.isSome_iff_exists.mp hcolumns.2.1
        exact absurd (hdue.1 lockedUntil htime)
          (not_lt.mpr (hrun key row hrow hpublish lockedUntil htime))

/-- A step is in time if time does not pass the lease of a receipt in flight,
and a receipt is claimed under a lease that has not run out. -/
def InTime (cfg : Config) (σ : World) : Event → Prop
  | .tick clock =>
      ∀ key row, σ.receipts.row key = some row → row.publishStatus = .inFlight →
        ∀ lockedUntil, row.lockedUntil = some lockedUntil → clock ≤ lockedUntil
  | .claim owner skipLocked now =>
      ∀ lockUntil, σ.passes owner = .claiming lockUntil →
        ∀ row ∈ candidates σ.receipts cfg.relayBatchSize skipLocked now,
          σ.clock ≤ timestamptz lockUntil
  | _ => True

theorem row_claimPending {receipts : Receipts} {lockOwner : String}
    {lockUntil now : Int} {limit : Nat} {skipLocked : String → Bool}
    {row : ReceiptRow} (h : row ∈ candidates receipts limit skipLocked now) :
    (claimPending receipts lockOwner lockUntil limit skipLocked now).2.row
      row.dedupeKey = some (markInFlight lockOwner lockUntil now row) := by
  have hrow := (Table.mem_of_mem_select _ _ _ h).1
  simp only [claimPending, Table.row_modifyAll, hrow, Option.map_some]
  exact if_pos (List.mem_map_of_mem h)

theorem inTime_of_leasesRun {cfg : Config} {σ σ' : World} {e : Event}
    (hstep : step cfg σ e = some σ') (hrun : LeasesRun σ') : InTime cfg σ e := by
  cases e with
  | tick clock =>
      obtain ⟨_, hσ⟩ := Option.ite_none_right_eq_some.mp hstep
      obtain rfl := Option.some.inj hσ
      exact hrun
  | claim owner skipLocked now =>
      intro lockUntil hpass row hmem
      simp only [step, hpass] at hstep
      obtain ⟨_, hσ⟩ := Option.ite_none_right_eq_some.mp hstep
      obtain rfl := Option.some.inj hσ
      exact hrun row.dedupeKey _ (row_claimPending hmem) rfl _ rfl
  | _ => trivial

theorem leasesRun_step {cfg : Config} {σ σ' : World} {e : Event}
    (hrun : LeasesRun σ) (hstep : step cfg σ e = some σ')
    (hintime : InTime cfg σ e) : LeasesRun σ' := by
  intro key row hrow hstatus lockedUntil htime
  obtain ⟨hrows, hclock⟩ := effect_of_step hstep
  have hrowStep := hrows key
  rw [hrow] at hrowStep
  rw [hclock]
  generalize hold : σ.receipts.row key = old at hrowStep
  cases hrowStep with
  | kept =>
      cases e with
      | tick clock => exact hintime key row hold hstatus lockedUntil htime
      | _ => exact hrun key row hold hstatus lockedUntil htime
  | inserted => cases hstatus
  | counted _ _ before => exact hrun _ before hold hstatus lockedUntil htime
  | claimed hpass _ hmem =>
      obtain rfl := Option.some.inj htime
      exact hintime _ hpass _ hmem
  | published | retried => cases hstatus

/-- A run strands no receipt in any of its states if and only if every step of
it is in time. -/
theorem no_receipt_stranded_iff {cfg : Config} {σ : World}
    {trace : List (World × Event)} (hrun : Run cfg trace σ) :
    ((∀ p ∈ trace, NoneStranded p.1) ∧ NoneStranded σ) ↔
      ∀ p ∈ trace, InTime cfg p.1 p.2 := by
  refine hrun.always_iff (InTime cfg) ?_ ?_
  · intro key row hrow
    cases hrow
  · intro s e t hreach hnone hstep
    have hok := leasesOk_of_reachable hreach
    rw [noneStranded_iff_leasesRun (leasesOk_step hok hstep)]
    rw [noneStranded_iff_leasesRun hok] at hnone
    exact ⟨inTime_of_leasesRun hstep, leasesRun_step hnone hstep⟩

def sampleConfig : Config where
  relayLease := 30000000000
  relayBatchSize := 50
  publishDelay := 200000000
  publishBackoff := 2
  indexable := sampleIndexable

def sampleRegistration : ReceiptRegistration where
  dedupeKey := "CONFIRMED:ref-1"
  paymentReference := "ref-1"
  paymentStatus := "CONFIRMED"
  providerEventId := "evt-1"
  correlationId := "corr-1"
  messageId := "pcb:ref-1"
  routingKey := "payment.callback.confirmed"
  payloadJson := newEnvelopeWithMetadata "payment.callback.confirmed"
    "pcb:ref-1" "corr-1" "evt-1" "2026-01-01T00:00:00Z" "webhook-service"
    { eventId := "evt-1"
      paymentReference := "ref-1"
      amount := 100
      currency := "BRL"
      occurredAt := "2026-01-01T00:00:00Z" }

/-- A receipt is registered and claimed. -/
def claimSteps : List Event :=
  [.register sampleRegistration 0, .wake "relay:1" 0,
    .claim "relay:1" (fun _ => false) 0]

/-- Its relay publishes it and marks it. -/
def publishSteps : List Event :=
  [.publish "relay:1" (.ok ()) 0, .settle "relay:1" 0]

theorem no_receipt_stranded_sample :
    ∃ σ trace, Run sampleConfig trace σ ∧
      (∃ row, σ.receipts.row "CONFIRMED:ref-1" = some row ∧
        row.publishStatus = .published) ∧
      (((∀ p ∈ trace, NoneStranded p.1) ∧ NoneStranded σ) ↔
        ∀ p ∈ trace, InTime sampleConfig p.1 p.2) := by
  have hreplay : ∃ σ, StepSystem.replay (step sampleConfig) World.init
      (claimSteps ++ publishSteps) = some σ ∧
      ∃ row, σ.receipts.row "CONFIRMED:ref-1" = some row ∧
        row.publishStatus = .published := ⟨_, rfl, _, rfl, rfl⟩
  obtain ⟨σ, hreplay, hrow⟩ := hreplay
  have hrun := StepSystem.run_of_replay hreplay
  exact ⟨σ, _, hrun, hrow, no_receipt_stranded_iff hrun⟩

/-- A relay that crashes with a claimed receipt leaves it stranded once the
lease has run out. -/
theorem stranded_by_crash :
    ∃ σ, StepSystem.replay (step sampleConfig) World.init
        (claimSteps ++ [.crash "relay:1", .tick 30000000001]) = some σ ∧
      ¬ NoneStranded σ := by
  have hreplay : ∃ σ, StepSystem.replay (step sampleConfig) World.init
      (claimSteps ++ [.crash "relay:1", .tick 30000000001]) = some σ ∧
      σ.clock = 30000000001 ∧
      ∃ row, σ.receipts.row "CONFIRMED:ref-1" = some row ∧
        row.publishStatus = .inFlight ∧ row.lockedUntil = some 30000000000 :=
    ⟨_, rfl, rfl, _, rfl, rfl, rfl⟩
  obtain ⟨σ, hreplay, hclock, row, hrow, hstatus, htime⟩ := hreplay
  have hreach := (StepSystem.run_of_replay hreplay).reachable
  refine ⟨σ, hreplay, fun hnone => ?_⟩
  have hrun := (noneStranded_iff_leasesRun (leasesOk_of_reachable hreach)).mp hnone
  have hlate := hrun _ row hrow hstatus _ htime
  rw [hclock] at hlate
  omega

end Modularis.Webhook.Leases
