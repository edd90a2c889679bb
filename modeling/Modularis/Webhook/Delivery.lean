import Modularis.Webhook.Leases
import Modularis.Webhook.Payloads

namespace Modularis.Webhook.Delivery

open Modularis.Foundation
open Modularis.Shared.Messaging
open Modularis.Webhook.ReceiptStore
open Modularis.Webhook.Relay
open Modularis.Webhook.Leases
open Modularis.Webhook.Payloads

/-- The relay that takes the step. -/
def Event.owner? : Event → Option String
  | .tick _ | .register _ _ => none
  | .wake owner _ | .claim owner _ _ | .publish owner _ _ | .settle owner _
  | .fail owner | .crash owner => some owner

/-- What a step taken in `σ` can do to the pass of an owner. -/
inductive PassStep (cfg : Config) (σ : World) :
    Event → String → Pass → Pass → Prop
  | kept {e : Event} {owner : String} (pass : Pass) :
      Event.owner? e ≠ some owner → PassStep cfg σ e owner pass pass
  | woken (owner : String) (relayClock : Int) :
      PassStep cfg σ (.wake owner relayClock) owner .unused
        (.claiming (relayClock + cfg.relayLease))
  | claimed {owner : String} {skipLocked : String → Bool} {now : Int}
      (lockUntil : Int) :
      PassStep cfg σ (.claim owner skipLocked now) owner (.claiming lockUntil)
        (nextReceipt ((candidates σ.receipts cfg.relayBatchSize skipLocked
          now).map returning))
  | refused {owner error : String} {relayClock : Int} (receipt : Receipt)
      (retryAt : Int) (rest : List Receipt) :
      PassStep cfg σ (.publish owner (.error error) relayClock) owner
        (.publishing receipt rest) (.retrying receipt retryAt error rest)
  | delivered {owner : String} {relayClock : Int} (receipt : Receipt)
      (rest : List Receipt) :
      PassStep cfg σ (.publish owner (.ok ()) relayClock) owner
        (.publishing receipt rest) (.marking receipt rest)
  | rescheduled {owner : String} {now : Int} (receipt : Receipt) (retryAt : Int)
      (error : String) (rest : List Receipt) :
      PassStep cfg σ (.settle owner now) owner
        (.retrying receipt retryAt error rest) (nextReceipt rest)
  | marked {owner : String} {now : Int} (receipt : Receipt)
      (rest : List Receipt) :
      PassStep cfg σ (.settle owner now) owner (.marking receipt rest)
        (nextReceipt rest)
  | failed {owner : String} {pass pass' : Pass} :
      afterFailure pass = some pass' → PassStep cfg σ (.fail owner) owner pass pass'
  | crashed (owner : String) (pass : Pass) :
      PassStep cfg σ (.crash owner) owner pass .ended

section PassSteps

variable {cfg : Config} {σ σ' : World} {e : Event}

theorem passStep_setPass (receipts : Receipts) {other : String} {pass : Pass}
    (howner : Event.owner? e = some other)
    (hpass : PassStep cfg σ e other (σ.passes other) pass) (owner : String) :
    PassStep cfg σ e owner (σ.passes owner)
      ((World.setPass { σ with receipts := receipts } other pass).passes owner) := by
  by_cases hother : owner = other
  · subst hother
    simpa [World.setPass] using hpass
  · simp only [World.setPass, Function.update_of_ne hother]
    refine .kept _ ?_
    rw [howner]
    exact fun hsame => hother (Option.some.inj hsame).symm

theorem passStep_of_step (hstep : step cfg σ e = some σ') (owner : String) :
    PassStep cfg σ e owner (σ.passes owner) (σ'.passes owner) := by
  cases e with
  | tick clock | register input now =>
      obtain ⟨_, hσ⟩ := Option.ite_none_right_eq_some.mp hstep
      obtain rfl := Option.some.inj hσ
      exact .kept _ (by simp [Event.owner?])
  | wake other relayClock =>
      simp only [step] at hstep
      split at hstep
      · rename_i hpass
        obtain rfl := Option.some.inj hstep
        exact passStep_setPass σ.receipts rfl
          (hpass ▸ .woken other relayClock) owner
      · cases hstep
  | claim other skipLocked now =>
      simp only [step] at hstep
      split at hstep
      · rename_i lockUntil hpass
        obtain ⟨_, hσ⟩ := Option.ite_none_right_eq_some.mp hstep
        obtain rfl := Option.some.inj hσ
        exact passStep_setPass _ rfl (hpass ▸ .claimed lockUntil) owner
      · cases hstep
  | publish other answer relayClock =>
      simp only [step] at hstep
      split at hstep
      · rename_i receipt rest hpass
        obtain rfl := Option.some.inj hstep
        refine passStep_setPass σ.receipts rfl ?_ owner
        rw [hpass]
        cases answer with
        | error error => exact .refused receipt _ rest
        | ok _ => exact .delivered receipt rest
      · cases hstep
  | settle other now =>
      obtain ⟨_, hσ⟩ := Option.ite_none_right_eq_some.mp hstep
      obtain ⟨result, hresult, rfl⟩ := Option.map_eq_some_iff.mp hσ
      refine passStep_setPass _ rfl ?_ owner
      generalize σ.passes other = pass at hresult
      cases pass with
      | retrying receipt retryAt error rest =>
          obtain rfl := Option.some.inj hresult
          exact .rescheduled receipt retryAt error rest
      | marking receipt rest =>
          obtain rfl := Option.some.inj hresult
          exact .marked receipt rest
      | unused | claiming | publishing | ended => cases hresult
  | fail other =>
      obtain ⟨pass, hpass, rfl⟩ := Option.map_eq_some_iff.mp hstep
      exact passStep_setPass σ.receipts rfl (.failed hpass) owner
  | crash other =>
      obtain rfl := Option.some.inj hstep
      exact passStep_setPass σ.receipts rfl (.crashed other _) owner

end PassSteps

section Locks

variable {cfg : Config} {σ σ' : World} {e : Event}

theorem inFlightOf_iff {lockOwner : String} {row : ReceiptRow} :
    inFlightOf lockOwner row = true ↔
      row.publishStatus = .inFlight ∧ row.lockedBy = some lockOwner := by
  simp [inFlightOf]

theorem inFlightOf_unique {owner other : String} {row : ReceiptRow}
    (h : inFlightOf owner row = true) (h' : inFlightOf other row = true) :
    owner = other := by
  have hlock := (inFlightOf_iff.mp h).2
  exact Option.some.inj (hlock.symm.trans (inFlightOf_iff.mp h').2)

/-- The row under a key is in flight for the owner. -/
def OwnedBy (receipts : Receipts) (owner key : String) : Prop :=
  ∃ row, receipts.row key = some row ∧ inFlightOf owner row = true

theorem OwnedBy.unique {receipts : Receipts} {owner other key : String}
    (h : OwnedBy receipts owner key) (h' : OwnedBy receipts other key) :
    owner = other := by
  obtain ⟨row, hrow, howner⟩ := h
  obtain ⟨row', hrow', hother⟩ := h'
  obtain rfl := Option.some.inj (hrow.symm.trans hrow')
  exact inFlightOf_unique howner hother

theorem OwnedBy.of_step {owner key : String} (h : OwnedBy σ.receipts owner key)
    (hstep : step cfg σ e = some σ')
    (hkeep : ∀ now receipt rest, e = .settle owner now →
      carried (σ.passes owner) = receipt :: rest → receipt.dedupeKey ≠ key) :
    OwnedBy σ'.receipts owner key := by
  obtain ⟨row, hrow, howner⟩ := h
  have hchange := (effect_of_step hstep).1 key
  rw [hrow] at hchange
  unfold OwnedBy
  generalize σ'.receipts.row key = new at hchange
  cases hchange with
  | kept => exact ⟨row, rfl, howner⟩
  | counted => exact ⟨_, rfl, howner⟩
  | claimed _ _ hmem =>
      have hpending := (claimable_iff.mp (claimable_of_candidate hmem)).1
      cases hpending.symm.trans (inFlightOf_iff.mp howner).1
  | published now hpass hother | retried now hpass hother =>
      obtain rfl := inFlightOf_unique howner hother
      exact absurd rfl (hkeep now _ _ rfl (by rw [hpass]; rfl))

/-- A pass has the lock of every receipt that it carries, and carries none
twice. -/
structure Held (σ : World) : Prop where
  owned : ∀ owner, ∀ receipt ∈ carried (σ.passes owner),
    OwnedBy σ.receipts owner receipt.dedupeKey
  distinct : ∀ owner, ((carried (σ.passes owner)).map Receipt.dedupeKey).Nodup

theorem held_init : Held World.init where
  owned := by
    intro owner receipt hreceipt
    cases hreceipt
  distinct := fun _ => List.nodup_nil

theorem ownedBy_claimed {owner : String} {skipLocked : String → Bool}
    {now lockUntil : Int} (hpass : σ.passes owner = .claiming lockUntil)
    (hstep : step cfg σ (.claim owner skipLocked now) = some σ')
    {row : ReceiptRow}
    (hmem : row ∈ candidates σ.receipts cfg.relayBatchSize skipLocked now) :
    OwnedBy σ'.receipts owner row.dedupeKey := by
  simp only [step, hpass] at hstep
  obtain ⟨_, hσ⟩ := Option.ite_none_right_eq_some.mp hstep
  obtain rfl := Option.some.inj hσ
  exact ⟨_, row_claimPending hmem, by simp [inFlightOf, markInFlight]⟩

theorem held_settled (h : Held σ) {owner : String} {now : Int} {first : Receipt}
    {rest : List Receipt} (hstep : step cfg σ (.settle owner now) = some σ')
    (hpass : carried (σ.passes owner) = first :: rest) :
    (∀ receipt ∈ rest, OwnedBy σ'.receipts owner receipt.dedupeKey) ∧
      (rest.map Receipt.dedupeKey).Nodup := by
  have howned := h.owned owner
  have hdistinct := h.distinct owner
  rw [hpass] at howned hdistinct
  obtain ⟨hfirst, hrest⟩ := List.nodup_cons.mp hdistinct
  refine ⟨fun receipt hmem => ?_, hrest⟩
  refine (howned receipt (List.mem_cons_of_mem _ hmem)).of_step hstep ?_
  intro _ receipt' rest' _ hpass' hsame
  obtain ⟨rfl, _⟩ := List.cons.inj (hpass.symm.trans hpass')
  exact hfirst (hsame ▸ List.mem_map_of_mem hmem)

theorem carried_failure {pass pass' : Pass} (h : afterFailure pass = some pass') :
    (carried pass').Sublist (carried pass) := by
  cases pass with
  | claiming lockUntil =>
      obtain rfl := Option.some.inj h
      exact List.nil_sublist _
  | retrying first retryAt error rest | marking first rest =>
      obtain rfl := Option.some.inj h
      rw [carried_nextReceipt]
      exact List.sublist_cons_self first rest
  | unused | publishing | ended => cases h

theorem held_step (h : Held σ) (hstep : step cfg σ e = some σ') : Held σ' := by
  have hboth : ∀ owner, (∀ receipt ∈ carried (σ'.passes owner),
      OwnedBy σ'.receipts owner receipt.dedupeKey) ∧
      ((carried (σ'.passes owner)).map Receipt.dedupeKey).Nodup := by
    intro owner
    have hpass := passStep_of_step hstep owner
    have howned := h.owned owner
    have hdistinct := h.distinct owner
    have hsub : ∀ {pass'}, (carried pass').Sublist (carried (σ.passes owner)) →
        (∀ now, e ≠ .settle owner now) →
        (∀ receipt ∈ carried pass', OwnedBy σ'.receipts owner receipt.dedupeKey) ∧
          ((carried pass').map Receipt.dedupeKey).Nodup := by
      intro pass' hsub hother
      refine ⟨fun receipt hmem => ?_, hdistinct.sublist (hsub.map _)⟩
      exact (howned receipt (hsub.subset hmem)).of_step hstep
        fun now _ _ hsettle => absurd hsettle (hother now)
    generalize hold : σ.passes owner = old at hpass
    generalize σ'.passes owner = new at hpass
    cases hpass with
    | kept _ hkeep =>
        refine hsub (hold ▸ List.Sublist.refl _) ?_
        rintro now rfl
        exact hkeep rfl
    | woken | crashed => exact ⟨by simp [carried], List.nodup_nil⟩
    | claimed lockUntil =>
        rw [carried_nextReceipt]
        constructor
        · intro receipt hmem
          obtain ⟨row, hrow, rfl⟩ := List.mem_map.mp hmem
          exact ownedBy_claimed hold hstep hrow
        · rw [List.map_map]
          exact Table.nodup_select _ _ _ _
    | refused | delivered =>
        exact hsub (hold ▸ List.Sublist.refl _) (by simp)
    | rescheduled first retryAt error rest | marked first rest =>
        rw [carried_nextReceipt]
        exact held_settled h hstep (by rw [hold]; rfl)
    | failed hfailed =>
        exact hsub (hold ▸ carried_failure hfailed) (by simp)
  exact ⟨fun owner => (hboth owner).1, fun owner => (hboth owner).2⟩

theorem held_of_reachable (h : Reachable cfg σ) : Held σ :=
  h.invariant held_init fun _ _ _ => held_step

end Locks

section Histories

/-- The receipt whose `Publish` returns nil in a step. -/
def delivered (σ : World) : Event → Option Receipt
  | .publish owner (.ok _) relayClock =>
      publishes σ (.publish owner (.ok ()) relayClock)
  | _ => none

/-- The receipt for which a step commits `RetryPending`. -/
def rescheduled (σ : World) : Event → Option Receipt
  | .settle owner _ =>
      match σ.passes owner with
      | .retrying receipt _ _ _ => some receipt
      | _ => none
  | _ => none

/-- How many steps of a history did to the receipt under a key what `f` tells. -/
def timesOf (f : World → Event → Option Receipt) (key : String)
    (trace : List (World × Event)) : Nat :=
  trace.countP fun p => (f p.1 p.2).map Receipt.dedupeKey = some key

theorem timesOf_concat (f : World → Event → Option Receipt) (key : String)
    (trace : List (World × Event)) (σ : World) (e : Event) :
    timesOf f key (trace ++ [(σ, e)]) = timesOf f key trace +
      if (f σ e).map Receipt.dedupeKey = some key then 1 else 0 := by
  simp [timesOf, List.countP_append, List.countP_cons]

/-- The receipts of a pass that it has still to publish with success. -/
def unsent : Pass → List Receipt
  | .unused | .claiming _ | .ended => []
  | .publishing receipt rest | .retrying receipt _ _ rest => receipt :: rest
  | .marking _ rest => rest

@[simp] theorem unsent_nextReceipt (rest : List Receipt) :
    unsent (nextReceipt rest) = rest := by
  cases rest <;> rfl

theorem unsent_subset (pass : Pass) : unsent pass ⊆ carried pass := by
  cases pass with
  | marking first rest => exact List.subset_cons_self first rest
  | _ => exact List.Subset.refl _

/-- The owner of a lock has published the receipt with success. -/
def SentBy (trace : List (World × Event)) (owner : String) (receipt : Receipt) :
    Prop :=
  ∃ p ∈ trace, ∃ relayClock, p.2 = .publish owner (.ok ()) relayClock ∧
    publishes p.1 p.2 = some receipt

theorem SentBy.concat {trace : List (World × Event)} {owner : String}
    {receipt : Receipt} (h : SentBy trace owner receipt) (p : World × Event) :
    SentBy (trace ++ [p]) owner receipt := by
  obtain ⟨q, hq, hsent⟩ := h
  exact ⟨q, List.mem_append_left _ hq, hsent⟩

/-- A receipt that has not been published with success: it is not stored, it
waits, or a pass has still to publish it. -/
def Undelivered (σ : World) (key : String) : Prop :=
  (∀ row, σ.receipts.row key = some row → row.publishStatus = .pending) ∨
    ∃ owner, ∃ receipt ∈ unsent (σ.passes owner), receipt.dedupeKey = key

/-- What a history tells about the receipts of the state that it led to. -/
structure Accounted (trace : List (World × Event)) (σ : World) : Prop where
  undelivered : ∀ key, Undelivered σ key → timesOf delivered key trace = 0
  once : ∀ key, timesOf delivered key trace ≤ 1
  marking : ∀ owner receipt rest, σ.passes owner = .marking receipt rest →
    SentBy trace owner receipt
  attempts : ∀ key, timesOf rescheduled key trace =
    (σ.receipts.row key).elim 0 ReceiptRow.attempts

theorem accounted_init : Accounted [] World.init where
  undelivered := fun _ _ => rfl
  once := fun _ => Nat.zero_le 1
  marking := by
    intro owner receipt rest hpass
    cases hpass
  attempts := fun _ => rfl

variable {cfg : Config} {σ σ' : World} {e : Event}

theorem publishes_of_delivered {receipt : Receipt}
    (h : delivered σ e = some receipt) :
    ∃ owner relayClock rest, e = .publish owner (.ok ()) relayClock ∧
      σ.passes owner = .publishing receipt rest := by
  unfold delivered at h
  split at h
  · rename_i owner _ relayClock
    simp only [publishes] at h
    split at h
    · rename_i rest hpass
      obtain rfl := Option.some.inj h
      exact ⟨owner, relayClock, rest, rfl, hpass⟩
    · cases h
  · cases h

theorem ownedBy_of_delivered (h : Held σ) {key : String}
    (hkey : (delivered σ e).map Receipt.dedupeKey = some key) :
    ∃ owner relayClock receipt rest, e = .publish owner (.ok ()) relayClock ∧
      σ.passes owner = .publishing receipt rest ∧ receipt.dedupeKey = key ∧
      OwnedBy σ.receipts owner key := by
  obtain ⟨receipt, hreceipt, rfl⟩ := Option.map_eq_some_iff.mp hkey
  obtain ⟨owner, relayClock, rest, rfl, hpass⟩ := publishes_of_delivered hreceipt
  refine ⟨owner, relayClock, receipt, rest, rfl, hpass, rfl, ?_⟩
  exact h.owned owner receipt (by rw [hpass]; exact List.mem_cons_self)

/-- A receipt that waits after a step, or is gone, did so before it or was
rescheduled by it. -/
theorem undelivered_of_pending (h : Held σ) (hstep : step cfg σ e = some σ')
    {key : String} (hafter : ∀ row, σ'.receipts.row key = some row →
      row.publishStatus = .pending) :
    Undelivered σ key ∧ (delivered σ e).map Receipt.dedupeKey ≠ some key := by
  constructor
  · have hchange := (effect_of_step hstep).1 key
    generalize hold : σ.receipts.row key = old at hchange
    generalize hnew : σ'.receipts.row key = new at hchange
    cases hchange with
    | kept =>
        refine .inl fun row hrow => hafter row ?_
        rw [hnew, ← hold, hrow]
    | inserted => exact .inl fun row hrow => by cases hold.symm.trans hrow
    | counted _ _ row =>
        refine .inl fun row' hrow => ?_
        obtain rfl := Option.some.inj (hold.symm.trans hrow)
        have hsame := hafter _ hnew
        exact hsame
    | claimed | published => cases hafter _ hnew
    | @retried owner _ receipt _ _ _ _ hpass _ =>
        exact .inr ⟨owner, receipt, by rw [hpass]; exact List.mem_cons_self, rfl⟩
  · intro hdelivered
    obtain ⟨owner, relayClock, receipt, rest, rfl, _, _, howned⟩ :=
      ownedBy_of_delivered h hdelivered
    obtain ⟨row, hrow, howner⟩ := howned.of_step hstep
      fun _ _ _ hsettle => by cases hsettle
    cases (hafter row hrow).symm.trans (inFlightOf_iff.mp howner).1

/-- A receipt that a pass has still to publish after a step was not delivered
before it. -/
theorem undelivered_of_unsent (h : Held σ) (hstep : step cfg σ e = some σ')
    {owner : String} {receipt : Receipt}
    (hmem : receipt ∈ unsent (σ'.passes owner)) :
    Undelivered σ receipt.dedupeKey ∧
      (delivered σ e).map Receipt.dedupeKey ≠ some receipt.dedupeKey := by
  have hpass := passStep_of_step hstep owner
  have howned := h.owned owner
  have hdistinct := h.distinct owner
  have hwaits : receipt ∈ unsent (σ.passes owner) →
      Undelivered σ receipt.dedupeKey := fun hold => .inr ⟨owner, receipt, hold, rfl⟩
  generalize hold : σ.passes owner = old at hpass howned hdistinct hwaits
  generalize σ'.passes owner = new at hpass hmem
  cases hpass with
  | kept _ hkeep =>
      refine ⟨hwaits hmem, fun hdelivered => ?_⟩
      obtain ⟨other, _, _, _, rfl, _, _, hother⟩ :=
        ownedBy_of_delivered h hdelivered
      obtain rfl := (howned receipt (unsent_subset _ hmem)).unique hother
      exact hkeep rfl
  | woken | crashed => cases hmem
  | claimed lockUntil =>
      rw [unsent_nextReceipt] at hmem
      obtain ⟨row, hrow, rfl⟩ := List.mem_map.mp hmem
      refine ⟨.inl fun row' hrow' => ?_, by simp [delivered]⟩
      have hstored := (Table.mem_of_mem_select _ _ _ hrow).1
      obtain rfl := Option.some.inj (hstored.symm.trans hrow')
      exact (claimable_iff.mp (claimable_of_candidate hrow)).1
  | refused => exact ⟨hwaits hmem, by simp [delivered]⟩
  | delivered first rest =>
      refine ⟨hwaits (List.mem_cons_of_mem _ hmem), ?_⟩
      have hfirst := (List.nodup_cons.mp hdistinct).1
      simp only [Delivery.delivered, publishes, hold, Option.map_some, ne_eq,
        Option.some.injEq]
      intro hsame
      exact hfirst (hsame ▸ List.mem_map_of_mem hmem)
  | rescheduled first retryAt error rest =>
      rw [unsent_nextReceipt] at hmem
      exact ⟨hwaits (List.mem_cons_of_mem _ hmem), by simp [Delivery.delivered]⟩
  | marked first rest =>
      rw [unsent_nextReceipt] at hmem
      exact ⟨hwaits hmem, by simp [Delivery.delivered]⟩
  | failed hfailed =>
      refine ⟨hwaits ?_, by simp [Delivery.delivered]⟩
      cases old with
      | claiming lockUntil =>
          obtain rfl := Option.some.inj hfailed
          cases hmem
      | retrying first retryAt error rest =>
          obtain rfl := Option.some.inj hfailed
          rw [unsent_nextReceipt] at hmem
          exact List.mem_cons_of_mem _ hmem
      | marking first rest =>
          obtain rfl := Option.some.inj hfailed
          rw [unsent_nextReceipt] at hmem
          exact hmem
      | unused | publishing | ended => cases hfailed

/-- What has not been delivered after a step had not been delivered before it,
and the step does not deliver it. -/
theorem undelivered_of_step (h : Held σ) (hstep : step cfg σ e = some σ')
    {key : String} (hafter : Undelivered σ' key) :
    Undelivered σ key ∧ (delivered σ e).map Receipt.dedupeKey ≠ some key := by
  rcases hafter with hpending | ⟨owner, receipt, hmem, rfl⟩
  · exact undelivered_of_pending h hstep hpending
  · exact undelivered_of_unsent h hstep hmem

theorem attempts_of_rescheduled (h : Held σ) (hstep : step cfg σ e = some σ')
    {receipt : Receipt} (hreceipt : rescheduled σ e = some receipt) :
    ∃ row row', σ.receipts.row receipt.dedupeKey = some row ∧
      σ'.receipts.row receipt.dedupeKey = some row' ∧
      row'.attempts = row.attempts + 1 := by
  unfold rescheduled at hreceipt
  split at hreceipt
  · rename_i owner now
    split at hreceipt
    · rename_i first retryAt error rest hpass
      obtain rfl := Option.some.inj hreceipt
      obtain ⟨row, hrow, howner⟩ := h.owned owner first
        (by rw [hpass]; exact List.mem_cons_self)
      simp only [step, hpass, settlement] at hstep
      obtain ⟨_, hσ⟩ := Option.ite_none_right_eq_some.mp hstep
      obtain rfl := Option.some.inj hσ
      refine ⟨row, setRetry retryAt error now row, hrow, ?_, rfl⟩
      simp [World.setPass, retryPending, Table.row_modify, hrow, settle, howner]
    · cases hreceipt
  · cases hreceipt

theorem attempts_of_not_rescheduled (hstep : step cfg σ e = some σ')
    {key : String} (hkey : (rescheduled σ e).map Receipt.dedupeKey ≠ some key) :
    (σ'.receipts.row key).elim 0 ReceiptRow.attempts =
      (σ.receipts.row key).elim 0 ReceiptRow.attempts := by
  have hchange := (effect_of_step hstep).1 key
  generalize σ.receipts.row key = old at hchange
  generalize σ'.receipts.row key = new at hchange
  cases hchange with
  | retried _ hpass _ => exact absurd (by simp [rescheduled, hpass]) hkey
  | _ => rfl

theorem accounted_step {trace : List (World × Event)} (h : Accounted trace σ)
    (hheld : Held σ) (hstep : step cfg σ e = some σ') :
    Accounted (trace ++ [(σ, e)]) σ' := by
  refine ⟨fun key hafter => ?_, fun key => ?_, ?_, fun key => ?_⟩
  · obtain ⟨hbefore, hnot⟩ := undelivered_of_step hheld hstep hafter
    rw [timesOf_concat, if_neg hnot, h.undelivered key hbefore]
  · rw [timesOf_concat]
    split
    · rename_i hdelivered
      obtain ⟨owner, _, receipt, rest, _, hpass, hkey, _⟩ :=
        ownedBy_of_delivered hheld hdelivered
      have hzero := h.undelivered key
        (.inr ⟨owner, receipt, by rw [hpass]; exact List.mem_cons_self, hkey⟩)
      omega
    · exact h.once key
  · intro owner receipt rest hafter
    have hpass := passStep_of_step hstep owner
    have hbefore := h.marking owner
    have hnext : ∀ rest', nextReceipt rest' ≠ .marking receipt rest := by
      rintro (_ | ⟨first, rest'⟩) <;> simp [nextReceipt]
    generalize hold : σ.passes owner = old at hpass hbefore
    rw [hafter] at hpass
    generalize hnew : Pass.marking receipt rest = new at hpass
    cases hpass with
    | kept => exact (hbefore receipt rest hnew.symm).concat _
    | claimed | rescheduled | marked => exact absurd hnew.symm (hnext _)
    | delivered first rest' =>
        obtain ⟨rfl, rfl⟩ := Pass.marking.inj hnew
        refine ⟨_, List.mem_append_right _ (List.mem_singleton_self _), _, rfl, ?_⟩
        simp [publishes, hold]
    | failed hfailed =>
        subst hnew
        cases old with
        | claiming => cases hfailed
        | retrying _ _ _ rest' | marking _ rest' =>
            exact absurd (Option.some.inj hfailed) (hnext rest')
        | unused | publishing | ended => cases hfailed
    | woken | refused | crashed => cases hnew
  · rw [timesOf_concat, h.attempts key]
    split
    · rename_i hkey
      obtain ⟨receipt, hreceipt, rfl⟩ := Option.map_eq_some_iff.mp hkey
      obtain ⟨row, row', hrow, hrow', hattempts⟩ :=
        attempts_of_rescheduled hheld hstep hreceipt
      simp [hrow, hrow', hattempts]
    · rename_i hkey
      exact (attempts_of_not_rescheduled hstep hkey).symm

theorem accounted_of_run {trace : List (World × Event)}
    (hrun : Run cfg trace σ) : Accounted trace σ := by
  induction hrun with
  | nil => exact accounted_init
  | snoc hbefore hstep ih =>
      exact accounted_step ih (held_of_reachable hbefore.reachable) hstep

end Histories

section Safety

variable {cfg : Config} {σ : World}

theorem modify_of_fixed {receipts : Receipts} {key : String}
    {update : ReceiptRow → ReceiptRow}
    (hupdate : ∀ row, (update row).dedupeKey = row.dedupeKey)
    (hfixed : ∀ row, receipts.row key = some row → update row = row) :
    receipts.modify key update hupdate = receipts := by
  have hrow : (receipts.modify key update hupdate).row = receipts.row := by
    funext other
    rw [Table.row_modify]
    split
    · rename_i hkey
      rw [hkey]
      cases hstored : receipts.row key with
      | none => rfl
      | some row => rw [Option.map_some, hfixed row hstored]
    · rfl
  cases receipts
  simp only [Table.modify, Table.modifyAll, Table.mk.injEq, true_and] at hrow ⊢
  exact hrow

theorem settle_of_not_owner {lockOwner : String} {row : ReceiptRow}
    {update : ReceiptRow → ReceiptRow} (h : inFlightOf lockOwner row = false) :
    settle lockOwner update row = row := by
  simp [settle, h]

theorem unchanged_of_not_owner {receipts : Receipts} {key lockOwner : String}
    (h : ¬ OwnedBy receipts lockOwner key) (now : Int) :
    markPublished receipts key lockOwner now = receipts ∧
      ∀ nextAttemptAt lastError,
        retryPending receipts key lockOwner nextAttemptAt lastError now =
          receipts := by
  have hother : ∀ row, receipts.row key = some row →
      inFlightOf lockOwner row = false := by
    intro row hrow
    rw [← Bool.not_eq_true]
    exact fun howner => h ⟨row, hrow, howner⟩
  constructor
  · exact modify_of_fixed _ fun row hrow => settle_of_not_owner (hother row hrow)
  · intro nextAttemptAt lastError
    exact modify_of_fixed _ fun row hrow => settle_of_not_owner (hother row hrow)

/-- What is claimed of the relay in the last state of a history, and of the
next step. -/
structure RelaySafe (cfg : Config) (trace : List (World × Event)) (σ : World) :
    Prop where
  /-- A receipt in flight belongs to one lock owner, and no other pass has it. -/
  owner : ∀ key row, σ.receipts.row key = some row →
    row.publishStatus = .inFlight → ∃ owner, row.lockedBy = some owner ∧
      ∀ other, ∀ receipt ∈ carried (σ.passes other),
        receipt.dedupeKey = key → other = owner
  /-- A receipt becomes published only after its owner has published its payload
  with success. -/
  published : ∀ e σ' key row', step cfg σ e = some σ' →
    σ'.receipts.row key = some row' → row'.publishStatus = .published →
    ∃ row, σ.receipts.row key = some row ∧
      (row.publishStatus = .published ∨
        ∃ owner receipt, inFlightOf owner row = true ∧
          SentBy trace owner receipt ∧ receipt.dedupeKey = key ∧
          receipt.payloadJson = row.payloadJson)
  forever : ∀ e σ' key row, step cfg σ e = some σ' →
    σ.receipts.row key = some row → row.publishStatus = .published →
    ∃ row', σ'.receipts.row key = some row' ∧ row'.publishStatus = .published
  once : ∀ key, timesOf delivered key trace ≤ 1
  others : ∀ key lockOwner now, ¬ OwnedBy σ.receipts lockOwner key →
    markPublished σ.receipts key lockOwner now = σ.receipts ∧
      ∀ nextAttemptAt lastError, retryPending σ.receipts key lockOwner
        nextAttemptAt lastError now = σ.receipts
  attempts : ∀ key row, σ.receipts.row key = some row →
    row.attempts = timesOf rescheduled key trace

theorem owner_of_inFlight (hreach : Reachable cfg σ) {key : String}
    {row : ReceiptRow} (hrow : σ.receipts.row key = some row)
    (hflight : row.publishStatus = .inFlight) :
    ∃ owner, row.lockedBy = some owner ∧ ∀ other,
      ∀ receipt ∈ carried (σ.passes other), receipt.dedupeKey = key →
        other = owner := by
  have hcolumns := leasesOk_of_reachable hreach key row hrow
  simp only [LeaseColumns, hflight] at hcolumns
  obtain ⟨owner, hlock⟩ := Option.isSome_iff_exists.mp hcolumns.1
  refine ⟨owner, hlock, ?_⟩
  rintro other receipt hmem rfl
  have hother := (held_of_reachable hreach).owned other receipt hmem
  exact hother.unique ⟨row, hrow, inFlightOf_iff.mpr ⟨hflight, hlock⟩⟩

theorem sent_of_published {trace : List (World × Event)} (hrun : Run cfg trace σ)
    {e : Event} {σ' : World} {key : String} {row' : ReceiptRow}
    (hstep : step cfg σ e = some σ') (hrow' : σ'.receipts.row key = some row')
    (hpublished : row'.publishStatus = .published) :
    ∃ row, σ.receipts.row key = some row ∧
      (row.publishStatus = .published ∨
        ∃ owner receipt, inFlightOf owner row = true ∧
          SentBy trace owner receipt ∧ receipt.dedupeKey = key ∧
          receipt.payloadJson = row.payloadJson) := by
  have hchange := (effect_of_step hstep).1 key
  rw [hrow'] at hchange
  generalize hold : σ.receipts.row key = old at hchange
  generalize hnew : some row' = new at hchange
  cases hchange with
  | kept => exact ⟨row', hnew.symm, .inl hpublished⟩
  | counted _ _ row =>
      obtain rfl := Option.some.inj hnew
      exact ⟨row, rfl, .inl hpublished⟩
  | inserted | claimed | retried =>
      obtain rfl := Option.some.inj hnew
      cases hpublished
  | @published owner receipt rest row _ hpass howner =>
      have hcarried := carried_of_reachable hrun.reachable owner receipt
        (by rw [hpass]; exact List.mem_cons_self)
      refine ⟨row, rfl, .inr ⟨owner, receipt, howner,
        (accounted_of_run hrun).marking owner receipt rest hpass, rfl, ?_⟩⟩
      exact hcarried.unique ⟨row, hold, rfl⟩

theorem published_of_step {e : Event} {σ' : World} {key : String}
    {row : ReceiptRow} (hstep : step cfg σ e = some σ')
    (hrow : σ.receipts.row key = some row)
    (hpublished : row.publishStatus = .published) :
    ∃ row', σ'.receipts.row key = some row' ∧
      row'.publishStatus = .published := by
  have hchange := (effect_of_step hstep).1 key
  rw [hrow] at hchange
  generalize σ'.receipts.row key = new at hchange
  cases hchange with
  | kept | counted | published => exact ⟨_, rfl, by first | rfl | exact hpublished⟩
  | claimed _ _ hmem =>
      have hpending := (claimable_iff.mp (claimable_of_candidate hmem)).1
      cases hpublished.symm.trans hpending
  | retried _ _ howner =>
      cases hpublished.symm.trans (inFlightOf_iff.mp howner).1

/-- The relay is safe in every history of any number of relays and of calls of
`Register`. -/
theorem relay_safe {trace : List (World × Event)} (hrun : Run cfg trace σ) :
    RelaySafe cfg trace σ where
  owner := fun _ _ => owner_of_inFlight hrun.reachable
  published := fun _ _ _ _ => sent_of_published hrun
  forever := fun _ _ _ _ => published_of_step
  once := (accounted_of_run hrun).once
  others := fun _ _ now h => unchanged_of_not_owner h now
  attempts := by
    intro key row hrow
    rw [(accounted_of_run hrun).attempts key, hrow]
    rfl

/-- The first relay fails to publish the receipt, the callback comes again, and a second
relay publishes it. -/
def retrySteps : List Event :=
  [.publish "relay:1" (.error "message was nacked") 0, .settle "relay:1" 0,
    .tick 1000000000, .register sampleRegistration 1000000000,
    .wake "relay:2" 1000000000, .claim "relay:2" (fun _ => false) 1000000000,
    .publish "relay:2" (.ok ()) 1000000000, .settle "relay:2" 1000000000]

theorem relay_safe_sample :
    ∃ σ trace, Run sampleConfig trace σ ∧
      (∃ row, σ.receipts.row "CONFIRMED:ref-1" = some row ∧
        (row.publishStatus, row.attempts, row.duplicateCount) = (.published, 1, 1)) ∧
      RelaySafe sampleConfig trace σ := by
  have hreplay : ∃ σ, StepSystem.replay (step sampleConfig) World.init
      (claimSteps ++ retrySteps) = some σ ∧
      ∃ row, σ.receipts.row "CONFIRMED:ref-1" = some row ∧
        (row.publishStatus, row.attempts, row.duplicateCount) = (.published, 1, 1) :=
    ⟨_, rfl, _, rfl, rfl⟩
  obtain ⟨σ, hreplay, hrow⟩ := hreplay
  have hrun := StepSystem.run_of_replay hreplay
  exact ⟨σ, _, hrun, hrow, relay_safe hrun⟩

end Safety

end Modularis.Webhook.Delivery
