import Modularis.Foundation.Drain
import Modularis.Webhook.Leases

namespace Modularis.Webhook.Drain

open Modularis.Foundation
open Modularis.Foundation.StepSystem
open Modularis.Foundation.Drain
open Modularis.Webhook.ReceiptStore
open Modularis.Webhook.Relay
open Modularis.Webhook.Leases

/-- One pass of the loop, with the clock readings that it meets. -/
structure Turn where
  owner : String
  relayClock : Int
  claimedAt : Int
  settledAt : Nat → Int

/-- The body of the loop over the claimed receipts, once. -/
def send (owner : String) (settledAt : Int) : List Event :=
  [.publish owner (.ok ()) settledAt, .tick settledAt, .settle owner settledAt]

/-- The loop over the claimed receipts, where every publish succeeds. -/
def sends (owner : String) (settledAt : Nat → Int) : Nat → List Event
  | 0 => []
  | n + 1 => send owner (settledAt 0) ++ sends owner (fun k => settledAt (k + 1)) n

/-- What happens in a pass that claims so many receipts. -/
def Turn.events (turn : Turn) (claimed : Nat) : List Event :=
  .wake turn.owner turn.relayClock :: .tick turn.claimedAt ::
    .claim turn.owner (fun _ => false) turn.claimedAt ::
      sends turn.owner turn.settledAt claimed

/-- The receipts that a list of events hands to the publisher. -/
def published (cfg : Config) (σ : World) (events : List Event) : List Receipt :=
  (traceOf (step cfg) σ events).filterMap fun p => publishes p.1 p.2

/-- The store and what the publisher has taken so far. -/
abbrev State := World × List Receipt

/-- The rows that a pass claims. -/
def claimed (cfg : Config) (σ : World) (turn : Turn) : List ReceiptRow :=
  candidates σ.receipts cfg.relayBatchSize (fun _ => false) turn.claimedAt

/-- The world after a pass, with what was handed to the publisher. -/
def pass (cfg : Config) (state : State) (turn : Turn) : State :=
  let events := turn.events (claimed cfg state.1 turn).length
  ((replay (step cfg) state.1 events).getD state.1,
    state.2 ++ published cfg state.1 events)

/-- The receipt still has to be relayed. -/
def isPending (row : ReceiptRow) : Bool := decide (row.publishStatus = .pending)

/-- The receipts that still have to be relayed. -/
def pending (state : State) : List Receipt :=
  (state.1.receipts.rows.filter isPending).map returning

section Events

variable {cfg : Config} {σ σ' : World} {owner : String}

theorem replay_step {e : Event} (h : step cfg σ e = some σ') (es : List Event) :
    replay (step cfg) σ (e :: es) = replay (step cfg) σ' es ∧
      published cfg σ (e :: es) = (publishes σ e).toList ++ published cfg σ' es := by
  refine ⟨by rw [replay, h, Option.bind_some], ?_⟩
  simp only [published, traceOf, h, List.filterMap_cons]
  cases publishes σ e <;> rfl

theorem run_send (cfg : Config) {receipt : Receipt} {rest : List Receipt} {settledAt : Int}
    (hpass : σ.passes owner = .publishing receipt rest) (hclock : σ.clock ≤ settledAt) :
    ∃ σ', σ'.receipts = markPublished σ.receipts receipt.dedupeKey owner settledAt ∧
      σ'.clock = settledAt ∧ σ'.passes owner = nextReceipt rest ∧
      (∀ other, other ≠ owner → σ'.passes other = σ.passes other) ∧
      ∀ es, replay (step cfg) σ (send owner settledAt ++ es) = replay (step cfg) σ' es ∧
        published cfg σ (send owner settledAt ++ es) =
          receipt :: published cfg σ' es := by
  have hpublish : step cfg σ (.publish owner (.ok ()) settledAt) =
      some (σ.setPass owner (.marking receipt rest)) := by
    simp only [step, hpass]
    rfl
  have htick : step cfg (σ.setPass owner (.marking receipt rest)) (.tick settledAt) =
      some { σ.setPass owner (.marking receipt rest) with clock := settledAt } :=
    if_pos hclock
  let σ' : World :=
    { receipts := markPublished σ.receipts receipt.dedupeKey owner settledAt
      passes := Function.update (Function.update σ.passes owner (.marking receipt rest))
        owner (nextReceipt rest)
      clock := settledAt }
  have hsettle : step cfg { σ.setPass owner (.marking receipt rest) with
      clock := settledAt } (.settle owner settledAt) = some σ' := by
    simp only [step, World.setPass, Function.update_self, if_pos le_rfl]
    rfl
  refine ⟨σ', rfl, rfl, Function.update_self _ _ _, ?_, fun es => ⟨?_, ?_⟩⟩
  · intro other hother
    simp only [σ', Function.update_of_ne hother]
  · rw [send, List.cons_append, (replay_step hpublish _).1, List.cons_append,
      (replay_step htick _).1, List.cons_append, (replay_step hsettle _).1,
      List.nil_append]
  · have hfirst : publishes σ (.publish owner (.ok ()) settledAt) = some receipt := by
      simp only [publishes, hpass]
    rw [send, List.cons_append, (replay_step hpublish _).2, List.cons_append,
      (replay_step htick _).2, List.cons_append, (replay_step hsettle _).2, hfirst]
    rfl

/-- The rows under the keys are marked, and nothing else has changed. -/
structure Marked (σ σ' : World) (owner : String) (keys : List String) : Prop where
  passes : ∀ other, other ≠ owner → σ'.passes other = σ.passes other
  others : ∀ key, key ∉ keys → σ'.receipts.row key = σ.receipts.row key
  marked : ∀ key ∈ keys, ∃ now row, σ.receipts.row key = some row ∧
    σ'.receipts.row key = some (setPublished now row)

theorem run_sends (cfg : Config) {rows : List ReceiptRow} {settledAt : Nat → Int}
    (hpass : σ.passes owner = nextReceipt (rows.map returning))
    (hheld : ∀ row ∈ rows, ∃ held, σ.receipts.row row.dedupeKey = some held ∧
      inFlightOf owner held = true)
    (hnodup : (rows.map ReceiptRow.dedupeKey).Nodup) (hclock : σ.clock ≤ settledAt 0)
    (hmono : ∀ k, settledAt k ≤ settledAt (k + 1)) :
    ∃ σ', replay (step cfg) σ (sends owner settledAt rows.length) = some σ' ∧
      published cfg σ (sends owner settledAt rows.length) = rows.map returning ∧
      Marked σ σ' owner (rows.map ReceiptRow.dedupeKey) ∧
      ∀ time, (∀ k, settledAt k ≤ time) → σ'.clock ≤ time := by
  induction rows generalizing σ settledAt with
  | nil =>
      refine ⟨σ, rfl, rfl, ⟨fun _ _ => rfl, fun _ _ => rfl, by simp⟩, ?_⟩
      exact fun time htime => hclock.trans (htime 0)
  | cons row rows ih =>
      obtain ⟨held, hrow, howner⟩ := hheld row List.mem_cons_self
      obtain ⟨hnew, hnodup'⟩ := List.nodup_cons.mp hnodup
      obtain ⟨σ₁, hreceipts, hclock₁, hpass₁, hpasses₁, hrun₁⟩ :=
        run_send cfg hpass hclock
      have hsettled : settle owner (setPublished (settledAt 0)) held =
          setPublished (settledAt 0) held := if_pos howner
      have hrows₁ : ∀ key, σ₁.receipts.row key = if key = row.dedupeKey then
          some (setPublished (settledAt 0) held) else σ.receipts.row key := by
        intro key
        rw [hreceipts, markPublished, ← hsettled]
        exact Table.row_modify_of_some hrow _ _ key
      have hkeep : ∀ key ∈ rows.map ReceiptRow.dedupeKey,
          σ₁.receipts.row key = σ.receipts.row key := by
        intro key hkey
        rw [hrows₁, if_neg (ne_of_mem_of_not_mem hkey hnew)]
      have hheld₁ : ∀ other ∈ rows, ∃ held, σ₁.receipts.row other.dedupeKey = some held ∧
          inFlightOf owner held = true := by
        intro other hother
        rw [hkeep _ (List.mem_map_of_mem hother)]
        exact hheld other (List.mem_cons_of_mem row hother)
      obtain ⟨σ', hreplay, hpublished, hmarked, hclock'⟩ :=
        @ih σ₁ (fun k => settledAt (k + 1)) hpass₁ hheld₁ hnodup'
          (hclock₁.trans_le (hmono 0)) fun k => hmono (k + 1)
      obtain ⟨hrun, hout⟩ := hrun₁ (sends owner (fun k => settledAt (k + 1)) rows.length)
      refine ⟨σ', hrun.trans hreplay, ?_, ?_, fun time htime =>
        hclock' time fun k => htime (k + 1)⟩
      · exact hout.trans (congrArg _ hpublished)
      · refine ⟨fun other hother => ?_, fun key hkey => ?_, fun key hkey => ?_⟩
        · rw [hmarked.passes other hother, hpasses₁ other hother]
        · obtain ⟨hne, hkey'⟩ := not_or.mp fun h => hkey (List.mem_cons.mpr h)
          rw [hmarked.others key hkey', hrows₁, if_neg hne]
        · rcases List.mem_cons.mp hkey with rfl | hkey'
          · refine ⟨settledAt 0, held, hrow, ?_⟩
            rw [hmarked.others _ hnew, hrows₁, if_pos rfl]
          · obtain ⟨now, other, hother, hlater⟩ := hmarked.marked key hkey'
            exact ⟨now, other, (hkeep key hkey').symm.trans hother, hlater⟩

/-- The clock readings of a pass that begins at `clock`. -/
structure Turn.Timely (turn : Turn) (clock : Int) : Prop where
  start : clock ≤ turn.claimedAt
  first : turn.claimedAt ≤ turn.settledAt 0
  mono : ∀ k, turn.settledAt k ≤ turn.settledAt (k + 1)

/-- A row is as it was, or it has been relayed. -/
inductive Advances (row : ReceiptRow) : ReceiptRow → Prop
  | kept : Advances row row
  | relayed {row' : ReceiptRow} : row.publishStatus = .pending →
      row'.publishStatus = .published → returning row' = returning row →
      Advances row row'

theorem Advances.trans {row row' row'' : ReceiptRow} (h : Advances row row')
    (h' : Advances row' row'') : Advances row row'' := by
  cases h with
  | kept => exact h'
  | relayed hpending hpublished hreturning =>
      cases h' with
      | kept => exact .relayed hpending hpublished hreturning
      | relayed hpending' _ _ =>
          rw [hpublished] at hpending'
          cases hpending'

/-- A pass that nothing disturbs relays what it has claimed. -/
structure Relayed (cfg : Config) (σ σ' : World) (turn : Turn) : Prop where
  passes : ∀ other, other ≠ turn.owner → σ'.passes other = σ.passes other
  others : ∀ key, key ∉ (claimed cfg σ turn).map ReceiptRow.dedupeKey →
    σ'.receipts.row key = σ.receipts.row key
  relayed : ∀ row ∈ claimed cfg σ turn, ∃ row',
    σ'.receipts.row row.dedupeKey = some row' ∧ row'.publishStatus = .published ∧
      returning row' = returning row
  clock : ∀ time, (∀ k, turn.settledAt k ≤ time) → σ'.clock ≤ time

theorem run_turn (cfg : Config) {turn : Turn} (hunused : σ.passes turn.owner = .unused)
    (htimely : turn.Timely σ.clock) :
    ∃ σ', replay (step cfg) σ (turn.events (claimed cfg σ turn).length) = some σ' ∧
      published cfg σ (turn.events (claimed cfg σ turn).length) =
        (claimed cfg σ turn).map returning ∧
      Relayed cfg σ σ' turn := by
  let lockUntil := turn.relayClock + cfg.relayLease
  let waiting := Function.update σ.passes turn.owner (.claiming lockUntil)
  let result := claimPending σ.receipts turn.owner lockUntil cfg.relayBatchSize
    (fun _ => false) turn.claimedAt
  let σ₁ : World :=
    { receipts := result.2
      passes := Function.update waiting turn.owner (nextReceipt result.1)
      clock := turn.claimedAt }
  have hwake : step cfg σ (.wake turn.owner turn.relayClock) =
      some (σ.setPass turn.owner (.claiming lockUntil)) := by
    simp only [step, hunused]
    rfl
  have htick : step cfg (σ.setPass turn.owner (.claiming lockUntil))
      (.tick turn.claimedAt) =
        some { σ.setPass turn.owner (.claiming lockUntil) with
          clock := turn.claimedAt } :=
    if_pos htimely.start
  have hclaim : step cfg { σ.setPass turn.owner (.claiming lockUntil) with
      clock := turn.claimedAt } (.claim turn.owner (fun _ => false) turn.claimedAt) =
        some σ₁ := by
    simp only [step, World.setPass, Function.update_self, if_pos le_rfl]
    rfl
  have hrow (row : ReceiptRow) (hmem : row ∈ claimed cfg σ turn) :
      σ.receipts.row row.dedupeKey = some row :=
    (Table.mem_of_mem_select _ _ _ hmem).1
  have hrow₁ (row : ReceiptRow) (hmem : row ∈ claimed cfg σ turn) :
      σ₁.receipts.row row.dedupeKey =
        some (markInFlight turn.owner lockUntil turn.claimedAt row) := by
    have hkey : row.dedupeKey ∈ (claimed cfg σ turn).map ReceiptRow.dedupeKey :=
      List.mem_map_of_mem hmem
    exact (if_pos hkey).trans (by rw [hrow row hmem, Option.map_some])
  have hheld : ∀ row ∈ claimed cfg σ turn, ∃ held,
      σ₁.receipts.row row.dedupeKey = some held ∧
        inFlightOf turn.owner held = true :=
    fun row hmem => ⟨_, hrow₁ row hmem, by simp [inFlightOf, markInFlight]⟩
  obtain ⟨σ', hreplay, hpublished, hmarked, hclock⟩ := run_sends cfg
    (σ := σ₁) (Function.update_self turn.owner (nextReceipt result.1) waiting) hheld
    (Table.nodup_select _ _ _ _) htimely.first htimely.mono
  refine ⟨σ', ?_, ?_, ?_, ?_, ?_, hclock⟩
  · rw [Turn.events, (replay_step hwake _).1, (replay_step htick _).1,
      (replay_step hclaim _).1]
    exact hreplay
  · rw [Turn.events, (replay_step hwake _).2, (replay_step htick _).2,
      (replay_step hclaim _).2]
    exact hpublished
  · intro other hother
    rw [hmarked.passes other hother]
    simp only [σ₁, waiting, Function.update_of_ne hother]
  · intro key hkey
    rw [hmarked.others key hkey]
    exact if_neg hkey
  · intro row hmem
    obtain ⟨now, held, hheld', hmarked'⟩ := hmarked.marked row.dedupeKey
      (List.mem_map_of_mem hmem)
    obtain rfl := Option.some.inj ((hrow₁ row hmem).symm.trans hheld')
    exact ⟨_, hmarked', rfl, rfl⟩

end Events

section Passes

variable {cfg : Config} {σ σ' : World} {turn : Turn} {turns : List Turn}

/-- The passes come one after another, each under a new lock owner, when every pending
receipt is due. -/
structure Works (σ : World) (turns : List Turn) : Prop where
  unused : ∀ turn ∈ turns, σ.passes turn.owner = .unused
  distinct : (turns.map Turn.owner).Nodup
  timely : ∀ turn ∈ turns, turn.Timely σ.clock
  apart : turns.Pairwise fun earlier later => ∀ k, earlier.settledAt k ≤ later.claimedAt
  due : ∀ turn ∈ turns, ∀ row ∈ σ.receipts.rows, row.publishStatus = .pending →
    row.nextAttemptAt ≤ turn.claimedAt

theorem claimed_eq_select (hok : LeasesOk σ)
    (hdue : ∀ row ∈ σ.receipts.rows, row.publishStatus = .pending →
      row.nextAttemptAt ≤ turn.claimedAt) :
    claimed cfg σ turn = σ.receipts.select isPending (fun a b => a.createdAt ≤ b.createdAt)
      cfg.relayBatchSize := by
  refine select_congr fun row hmem => ?_
  rw [Bool.not_false, Bool.and_true, Bool.eq_iff_iff, claimable_iff, isPending,
    decide_eq_true_eq]
  constructor
  · exact fun h => h.1
  · intro hpending
    have hcolumns := hok _ row ((σ.receipts.mem_rows_iff row).mp hmem)
    simp only [LeaseColumns, hpending] at hcolumns
    exact ⟨hpending, hdue row hmem hpending, by rw [hcolumns.2, leaseOver]⟩

theorem Relayed.not_pending (h : Relayed cfg σ σ' turn) {row : ReceiptRow}
    (hrow : row ∈ σ'.receipts.rows)
    (hkey : row.dedupeKey ∈ (claimed cfg σ turn).map ReceiptRow.dedupeKey) :
    isPending row = false := by
  obtain ⟨first, hfirst, hsame⟩ := List.mem_map.mp hkey
  obtain ⟨row', hrow', hpublished, _⟩ := h.relayed first hfirst
  rw [hsame, (σ'.receipts.mem_rows_iff row).mp hrow] at hrow'
  obtain rfl := Option.some.inj hrow'
  simp [isPending, hpublished]

theorem pass_eq (cfg : Config) (out : List Receipt) (hunused : σ.passes turn.owner = .unused)
    (htimely : turn.Timely σ.clock) :
    ∃ σ', pass cfg (σ, out) turn = (σ', out ++ (claimed cfg σ turn).map returning) ∧
      Relayed cfg σ σ' turn ∧ (LeasesOk σ → LeasesOk σ') := by
  obtain ⟨σ', hreplay, hpublished, hrelayed⟩ := run_turn cfg hunused htimely
  refine ⟨σ', ?_, hrelayed, fun hok => ?_⟩
  · simp only [pass, hreplay, hpublished, Option.getD_some]
  · exact (run_of_replay hreplay).reachable.invariant hok fun _ _ _ => leasesOk_step

theorem handsOut_pass {state : State} (hok : LeasesOk state.1)
    (h : Works state.1 (turn :: turns)) :
    HandsOut pending Prod.snd cfg.relayBatchSize state (pass cfg state turn) := by
  obtain ⟨σ', hpass, hrelayed, _⟩ := pass_eq cfg state.2
    (h.unused turn List.mem_cons_self) (h.timely turn List.mem_cons_self)
  have hclaimed : claimed cfg state.1 turn = _ :=
    claimed_eq_select hok (h.due turn List.mem_cons_self)
  rw [hpass]
  have hbefore : pending state = (state.1.receipts.rows.filter isPending).map returning :=
    rfl
  have hafter : pending (σ', state.2 ++ (claimed cfg state.1 turn).map returning) =
      (σ'.receipts.rows.filter isPending).map returning := rfl
  refine handsOut_select returning hbefore hafter (congrArg _ (congrArg _ hclaimed)) ?_ ?_
  · rw [← hclaimed]
    exact hrelayed.others
  · rw [← hclaimed]
    exact fun row hrow hkey => hrelayed.not_pending hrow hkey

theorem works_pass (cfg : Config) {state : State} (hok : LeasesOk state.1)
    (h : Works state.1 (turn :: turns)) :
    LeasesOk (pass cfg state turn).1 ∧ Works (pass cfg state turn).1 turns := by
  obtain ⟨σ', hpass, hrelayed, hok'⟩ := pass_eq cfg state.2
    (h.unused turn List.mem_cons_self) (h.timely turn List.mem_cons_self)
  obtain ⟨hnew, hdistinct⟩ := List.nodup_cons.mp h.distinct
  obtain ⟨hlater, hapart⟩ := List.pairwise_cons.mp h.apart
  rw [hpass]
  refine ⟨hok' hok, ?_, hdistinct, ?_, hapart, ?_⟩
  · intro other hother
    rw [hrelayed.passes _ (ne_of_mem_of_not_mem (List.mem_map_of_mem hother) hnew)]
    exact h.unused other (List.mem_cons_of_mem turn hother)
  · intro other hother
    have htimely := h.timely other (List.mem_cons_of_mem turn hother)
    exact ⟨hrelayed.clock _ (hlater other hother), htimely.first, htimely.mono⟩
  · intro other hother row hrow hpending
    refine h.due other (List.mem_cons_of_mem turn hother) row ?_ hpending
    rw [Table.mem_rows_iff] at hrow ⊢
    rw [← hrow, eq_comm]
    refine hrelayed.others _ fun hkey => ?_
    have hnot := hrelayed.not_pending ((Table.mem_rows_iff _ _).mpr hrow) hkey
    rw [isPending, hpending, decide_eq_true rfl] at hnot
    cases hnot

/-- The receipts, and the relay over them. -/
def outbox (cfg : Config) : Outbox State Turn Receipt where
  pending := pending
  out := Prod.snd
  limit := cfg.relayBatchSize
  pass := pass cfg
  ready := fun state turns => LeasesOk state.1 ∧ Works state.1 turns
  handsOut := fun _ _ _ h => handsOut_pass h.1 h.2
  stays := fun _ _ _ h => works_pass cfg h.1 h.2

theorem advances_pass (cfg : Config) {state : State}
    (h : Works state.1 (turn :: turns)) {key : String} {row : ReceiptRow}
    (hrow : state.1.receipts.row key = some row) :
    ∃ row', (pass cfg state turn).1.receipts.row key = some row' ∧ Advances row row' := by
  obtain ⟨σ', hpass, hrelayed, _⟩ := pass_eq cfg state.2
    (h.unused turn List.mem_cons_self) (h.timely turn List.mem_cons_self)
  rw [hpass]
  by_cases hkey : key ∈ (claimed cfg state.1 turn).map ReceiptRow.dedupeKey
  · obtain ⟨first, hfirst, rfl⟩ := List.mem_map.mp hkey
    obtain ⟨row', hrow', hpublished, hreturning⟩ := hrelayed.relayed first hfirst
    obtain ⟨hfound, hwanted⟩ := Table.mem_of_mem_select _ _ _ hfirst
    obtain rfl := Option.some.inj (hfound.symm.trans hrow)
    rw [Bool.and_eq_true, claimable_iff] at hwanted
    exact ⟨row', hrow', .relayed hwanted.1.1 hpublished hreturning⟩
  · exact ⟨row, (hrelayed.others key hkey).trans hrow, .kept⟩

theorem advances_run (state : State) (hok : LeasesOk state.1) (h : Works state.1 turns)
    {key : String} {row : ReceiptRow} (hrow : state.1.receipts.row key = some row) :
    ∃ row', ((outbox cfg).run state turns).1.receipts.row key = some row' ∧
      Advances row row' := by
  induction turns generalizing state row with
  | nil => exact ⟨row, hrow, .kept⟩
  | cons turn turns ih =>
      obtain ⟨mid, hmid, hfirst⟩ := advances_pass cfg h hrow
      obtain ⟨hok', hworks⟩ := works_pass cfg hok h
      obtain ⟨row', hrow', hlater⟩ := ih _ hok' hworks hmid
      exact ⟨row', hrow', hfirst.trans hlater⟩

/-- Once nothing fails any more, passes of the relay hand out every pending receipt,
once, and no other; the rows say so. -/
theorem relay_empties (hreach : Reachable cfg σ) (h : Works σ turns)
    (hturns : (σ.receipts.rows.filter isPending).length ≤
      turns.length * cfg.relayBatchSize) :
    (outbox cfg).Emptied (σ, []) ((outbox cfg).run (σ, []) turns) ∧
      ∀ key row, σ.receipts.row key = some row → ∃ row',
        ((outbox cfg).run (σ, []) turns).1.receipts.row key = some row' ∧
          Advances row row' := by
  have hok := leasesOk_of_reachable hreach
  refine ⟨Outbox.emptied_run ⟨hok, h⟩ ?_, fun key row => advances_run (σ, []) hok h⟩
  simpa [outbox, pending] using hturns

end Passes

section Sample

/-- Two receipts a pass. -/
def sampleBatches : Config := { sampleConfig with relayBatchSize := 2 }

/-- A callback about a payment. -/
def registrationOf (reference : String) : ReceiptRegistration :=
  { sampleRegistration with
    dedupeKey := "CONFIRMED:" ++ reference
    paymentReference := reference
    providerEventId := "evt-" ++ reference
    messageId := "pcb:" ++ reference }

def sampleTurn (owner : String) (now : Int) : Turn where
  owner := owner
  relayClock := now
  claimedAt := now + 1
  settledAt := fun _ => now + 2

/-- The first receipt is relayed, then three more are registered. -/
def sampleEvents : List Event :=
  [.register (registrationOf "ref-1") 0] ++ (sampleTurn "relay:0" 0).events 1 ++
    [.register (registrationOf "ref-2") 2, .register (registrationOf "ref-3") 2,
      .register (registrationOf "ref-4") 2]

def sampleWorld : World :=
  (replay (step sampleBatches) World.init sampleEvents).getD World.init

/-- The second pass relays what the first has left. -/
def sampleTurns : List Turn := [sampleTurn "relay:1" 10, sampleTurn "relay:2" 30]

theorem reachable_sample : Reachable sampleBatches sampleWorld := by
  have hreplay : replay (step sampleBatches) World.init sampleEvents =
      some sampleWorld := rfl
  exact (run_of_replay hreplay).reachable

theorem works_sample : Works sampleWorld sampleTurns where
  unused := by
    intro turn hturn
    rcases List.mem_pair.mp hturn with rfl | rfl <;> rfl
  distinct := by decide
  timely := by
    intro turn hturn
    rcases List.mem_pair.mp hturn with rfl | rfl
    all_goals exact ⟨by decide, by decide, fun _ => le_rfl⟩
  apart := List.pairwise_pair.mpr fun _ => (by decide : (12 : Int) ≤ 31)
  due := by
    intro turn hturn
    rcases List.mem_pair.mp hturn with rfl | rfl <;> decide

theorem relay_empties_sample :
    (sampleWorld.receipts.rows.map ReceiptRow.publishStatus) =
      [.published, .pending, .pending, .pending] ∧
    (outbox sampleBatches).Emptied (sampleWorld, [])
        ((outbox sampleBatches).run (sampleWorld, []) sampleTurns) ∧
      ∀ key row, sampleWorld.receipts.row key = some row → ∃ row',
        ((outbox sampleBatches).run (sampleWorld, []) sampleTurns).1.receipts.row key =
          some row' ∧ Advances row row' :=
  ⟨by decide, relay_empties reachable_sample works_sample (by decide)⟩

end Sample

end Modularis.Webhook.Drain
