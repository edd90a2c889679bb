import Modularis.Foundation.Drain
import Modularis.Membership.OutboxPublisher

namespace Modularis.Membership.Drain

open Modularis.Foundation
open Modularis.Foundation.StepSystem
open Modularis.Foundation.Drain
open Modularis.Shared.Uuid
open Modularis.Membership.OutboxPublisher

/-- One call of `publishPendingEvents`, with the clock readings that it meets. -/
structure Turn where
  publisher : String
  now : Int
  sentAt : Nat → Int

/-- As many sends as there are events, all of which the broker takes. -/
def sends (publisher : String) (sentAt : Nat → Int) : Nat → List Event
  | 0 => []
  | n + 1 => .publish publisher true (sentAt 0) ::
      sends publisher (fun k => sentAt (k + 1)) n

/-- What happens in a call that finds so many events. -/
def Turn.events (turn : Turn) (found : Nat) : List Event :=
  .begin turn.publisher turn.now ::
    (sends turn.publisher turn.sentAt found ++ [.commit turn.publisher])

/-- What the query of a call loads. -/
def found (maxBatchSize : Nat) (world : World) (turn : Turn) : List OutboxEventEntity :=
  findPendingEvents world.outboxEvents turn.now maxBatchSize

/-- The world after a call. -/
def pass (maxBatchSize : Nat) (world : World) (turn : Turn) : World :=
  (replay (step maxBatchSize) world
    (turn.events (found maxBatchSize world turn).length)).getD world

/-- The event still has to be sent. -/
def isPending (event : OutboxEventEntity) : Bool := decide (event.status = .pending)

/-- The events that still have to be sent. -/
def pending (world : World) : List UUID :=
  (world.outboxEvents.rows.filter isPending).map OutboxEventEntity.id

section Events

variable {maxBatchSize : Nat} {world : World} {publisher : String}

/-- The copies of events that were all sent. -/
def markAll : List OutboxEventEntity → (Nat → Int) → List OutboxEventEntity
  | [], _ => []
  | event :: rest, sentAt => event.markPublished (sentAt 0) ::
      markAll rest fun k => sentAt (k + 1)

theorem id_markAll (events : List OutboxEventEntity) (sentAt : Nat → Int) :
    (markAll events sentAt).map OutboxEventEntity.id =
      events.map OutboxEventEntity.id := by
  induction events generalizing sentAt with
  | nil => rfl
  | cons event rest ih => rw [markAll, List.map_cons, List.map_cons, ih]; rfl

theorem mem_markAll (sentAt : Nat → Int) {events : List OutboxEventEntity}
    {event : OutboxEventEntity} (h : event ∈ events) :
    ∃ now, event.markPublished now ∈ markAll events sentAt := by
  induction events generalizing sentAt with
  | nil => cases h
  | cons first rest ih =>
      rcases List.mem_cons.mp h with rfl | hrest
      · exact ⟨_, List.mem_cons_self⟩
      · obtain ⟨now, hnow⟩ := ih (fun k => sentAt (k + 1)) hrest
        exact ⟨now, List.mem_cons_of_mem _ hnow⟩

theorem run_sends (maxBatchSize : Nat) {events changed : List OutboxEventEntity}
    (sentAt : Nat → Int)
    (hbatch : world.publishers publisher =
      some { pendingEvents := events, changed := changed }) :
    ∃ world', replay (step maxBatchSize) world (sends publisher sentAt events.length) =
        some world' ∧
      world'.outboxEvents = world.outboxEvents ∧
      world'.sent = world.sent ++ events.map OutboxEventEntity.id ∧
      world'.publishers = Function.update world.publishers publisher
        (some { pendingEvents := [], changed := changed ++ markAll events sentAt }) := by
  induction events generalizing world changed sentAt with
  | nil =>
      refine ⟨world, rfl, rfl, by simp, ?_⟩
      rw [markAll, List.append_nil, ← hbatch, Function.update_eq_self]
  | cons event rest ih =>
      let batch : Batch :=
        { pendingEvents := rest
          changed := changed ++ [event.markPublished (sentAt 0)] }
      let mid : World :=
        { outboxEvents := world.outboxEvents
          publishers := Function.update world.publishers publisher (some batch)
          sent := world.sent ++ [event.id] }
      have hstep : step maxBatchSize world (.publish publisher true (sentAt 0)) =
          some mid := by
        simp only [step, hbatch]
        rfl
      obtain ⟨world', hreplay, hevents, hsent, hpublishers⟩ :=
        @ih mid (changed ++ [event.markPublished (sentAt 0)]) (fun k => sentAt (k + 1))
          (Function.update_self _ _ _)
      refine ⟨world', replay_cons hstep hreplay, hevents, ?_, ?_⟩
      · rw [hsent, List.map_cons, List.append_assoc, List.singleton_append]
      · rw [hpublishers, Function.update_idem, markAll, List.append_assoc,
          List.singleton_append]

theorem exists_writeAll {events : OutboxEvents} {changed : List OutboxEventEntity}
    (h : ∀ event ∈ changed, (events.row event.id).isSome) :
    ∃ events', writeAll events changed = some events' := by
  induction changed generalizing events with
  | nil => exact ⟨events, rfl⟩
  | cons event rest ih =>
      obtain ⟨row, hrow⟩ := Option.isSome_iff_exists.mp (h event List.mem_cons_self)
      rw [writeAll, hrow]
      refine ih fun other hother => ?_
      rw [Table.row_modify]
      have hstored := h other (List.mem_cons_of_mem event hother)
      split
      · rwa [Option.isSome_map]
      · exact hstored

/-- A call that nothing disturbs sends what it has found and marks it. -/
structure Sent (maxBatchSize : Nat) (world world' : World) (turn : Turn) : Prop where
  publishers : world'.publishers = Function.update world.publishers turn.publisher none
  sent : world'.sent =
    world.sent ++ (found maxBatchSize world turn).map OutboxEventEntity.id
  others : ∀ id, id ∉ (found maxBatchSize world turn).map OutboxEventEntity.id →
    world'.outboxEvents.row id = world.outboxEvents.row id
  marked : ∀ event ∈ found maxBatchSize world turn, ∃ now,
    world'.outboxEvents.row event.id = some (event.markPublished now)

theorem sent_pass {turn : Turn} (hidle : world.publishers turn.publisher = none) :
    Sent maxBatchSize world (pass maxBatchSize world turn) turn := by
  let batch : Batch :=
    { pendingEvents := found maxBatchSize world turn
      changed := [] }
  have hbegin : step maxBatchSize world (.begin turn.publisher turn.now) =
      some (world.setPublisher turn.publisher (some batch)) := by
    simp only [step, hidle]
    rfl
  obtain ⟨mid, hsends, hevents, hsent, hpublishers⟩ :=
    @run_sends (world.setPublisher turn.publisher (some batch)) turn.publisher maxBatchSize
      (found maxBatchSize world turn) [] turn.sentAt (Function.update_self _ _ _)
  let changed := markAll (found maxBatchSize world turn) turn.sentAt
  have hids : changed.map OutboxEventEntity.id =
      (found maxBatchSize world turn).map OutboxEventEntity.id := id_markAll _ _
  have hstored : ∀ event ∈ changed, (world.outboxEvents.row event.id).isSome := by
    intro event hevent
    have hid : event.id ∈ (found maxBatchSize world turn).map OutboxEventEntity.id :=
      hids ▸ List.mem_map_of_mem hevent
    obtain ⟨row, hrow, hsame⟩ := List.mem_map.mp hid
    rw [← hsame, (Table.mem_of_mem_select _ _ _ hrow).1, Option.isSome_some]
  obtain ⟨events, hwrite⟩ := exists_writeAll hstored
  have hcommit : step maxBatchSize mid (.commit turn.publisher) =
      some { mid.setPublisher turn.publisher none with outboxEvents := events } := by
    simp only [step, hpublishers, Function.update_self, hevents]
    rw [if_pos trivial, List.nil_append]
    exact congrArg (Option.map _) hwrite
  have hpass : pass maxBatchSize world turn =
      { mid.setPublisher turn.publisher none with outboxEvents := events } := by
    have hend : replay (step maxBatchSize) mid [.commit turn.publisher] =
        some { mid.setPublisher turn.publisher none with outboxEvents := events } := by
      rw [replay, hcommit, Option.bind_some, replay]
    have hall := replay_cons hbegin (replay_append hsends hend)
    rw [pass, Turn.events, hall, Option.getD_some]
  have hnodup : (changed.map OutboxEventEntity.id).Nodup :=
    hids ▸ Table.nodup_select _ _ _ _
  rw [hpass]
  refine ⟨?_, hsent, fun id hid => ?_, fun event hevent => ?_⟩
  · simp only [World.setPublisher, hpublishers, Function.update_idem]
  · exact row_of_writeAll_other hwrite (hids ▸ hid)
  · obtain ⟨now, hnow⟩ := mem_markAll turn.sentAt hevent
    exact ⟨now, row_of_writeAll hwrite hnodup hnow⟩

end Events

section Passes

variable {maxBatchSize : Nat} {world : World} {turn : Turn} {turns : List Turn}

/-- No transaction of the instances is open, and every pending event is due. -/
structure Works (world : World) (turns : List Turn) : Prop where
  idle : ∀ turn ∈ turns, world.publishers turn.publisher = none
  due : ∀ turn ∈ turns, ∀ event ∈ world.outboxEvents.rows, event.status = .pending →
    event.nextAttemptAt ≤ turn.now

theorem found_eq_select (hdue : ∀ event ∈ world.outboxEvents.rows,
    event.status = .pending → event.nextAttemptAt ≤ turn.now) :
    found maxBatchSize world turn = world.outboxEvents.select isPending
      (fun first second => first.createdAt ≤ second.createdAt) maxBatchSize := by
  refine select_congr fun event hmem => ?_
  rw [isPending, decide_eq_decide, and_iff_left_iff_imp]
  exact hdue event hmem

theorem Sent.not_pending {world' : World} (h : Sent maxBatchSize world world' turn)
    {event : OutboxEventEntity} (hrow : event ∈ world'.outboxEvents.rows)
    (hid : event.id ∈ (found maxBatchSize world turn).map OutboxEventEntity.id) :
    isPending event = false := by
  obtain ⟨first, hfirst, hsame⟩ := List.mem_map.mp hid
  obtain ⟨now, hmarked⟩ := h.marked first hfirst
  rw [hsame, (world'.outboxEvents.mem_rows_iff event).mp hrow] at hmarked
  rw [Option.some.inj hmarked]
  rfl

theorem handsOut_pass (h : Works world (turn :: turns)) :
    HandsOut pending World.sent maxBatchSize world (pass maxBatchSize world turn) := by
  have hsent : Sent maxBatchSize world (pass maxBatchSize world turn) turn :=
    sent_pass (h.idle turn List.mem_cons_self)
  have hfound : found maxBatchSize world turn = _ :=
    found_eq_select (h.due turn List.mem_cons_self)
  have hpending (world : World) : pending world =
      (world.outboxEvents.rows.filter isPending).map OutboxEventEntity.id := rfl
  refine handsOut_select OutboxEventEntity.id (hpending _) (hpending _)
    (hsent.sent.trans (congrArg _ (congrArg _ hfound))) ?_ ?_
  · rw [← hfound]
    exact hsent.others
  · rw [← hfound]
    exact fun event hevent hid => hsent.not_pending hevent hid

theorem works_pass (h : Works world (turn :: turns)) :
    Works (pass maxBatchSize world turn) turns := by
  have hsent : Sent maxBatchSize world (pass maxBatchSize world turn) turn :=
    sent_pass (h.idle turn List.mem_cons_self)
  constructor
  · intro other hother
    rw [hsent.publishers, Function.update_apply]
    split
    · rfl
    · exact h.idle other (List.mem_cons_of_mem turn hother)
  · intro other hother event hevent hpending
    refine h.due other (List.mem_cons_of_mem turn hother) event ?_ hpending
    rw [Table.mem_rows_iff] at hevent ⊢
    rw [← hevent, eq_comm]
    refine hsent.others _ fun hid => ?_
    have hnot := hsent.not_pending ((Table.mem_rows_iff _ _).mpr hevent) hid
    rw [isPending, hpending, decide_eq_true rfl] at hnot
    cases hnot

/-- `outbox_events`, and the instances over it. -/
def outbox (maxBatchSize : Nat) : Outbox World Turn UUID where
  pending := pending
  out := World.sent
  limit := maxBatchSize
  pass := pass maxBatchSize
  ready := Works
  handsOut := fun _ _ _ => handsOut_pass
  stays := fun _ _ _ => works_pass

/-- An event is as it was, or it has been sent and says so. -/
inductive Advances (event : OutboxEventEntity) : OutboxEventEntity → Prop
  | kept : Advances event event
  | sent (now : Int) : event.status = .pending → Advances event (event.markPublished now)

theorem Advances.trans {event event' event'' : OutboxEventEntity} (h : Advances event event')
    (h' : Advances event' event'') : Advances event event'' := by
  cases h with
  | kept => exact h'
  | sent now hpending =>
      cases h' with
      | kept => exact .sent now hpending
      | sent now' hpending' => cases hpending'

theorem advances_pass (h : Works world (turn :: turns)) {id : UUID}
    {event : OutboxEventEntity} (hrow : world.outboxEvents.row id = some event) :
    ∃ event', (pass maxBatchSize world turn).outboxEvents.row id = some event' ∧
      Advances event event' := by
  have hsent : Sent maxBatchSize world (pass maxBatchSize world turn) turn :=
    sent_pass (h.idle turn List.mem_cons_self)
  by_cases hid : id ∈ (found maxBatchSize world turn).map OutboxEventEntity.id
  · obtain ⟨first, hfirst, rfl⟩ := List.mem_map.mp hid
    obtain ⟨now, hmarked⟩ := hsent.marked first hfirst
    obtain ⟨hstored, hwanted⟩ := Table.mem_of_mem_select _ _ _ hfirst
    obtain rfl := Option.some.inj (hstored.symm.trans hrow)
    exact ⟨_, hmarked, .sent now (of_decide_eq_true hwanted).1⟩
  · exact ⟨event, (hsent.others id hid).trans hrow, .kept⟩

theorem advances_run (world : World) (h : Works world turns) {id : UUID}
    {event : OutboxEventEntity} (hrow : world.outboxEvents.row id = some event) :
    ∃ event', ((outbox maxBatchSize).run world turns).outboxEvents.row id = some event' ∧
      Advances event event' := by
  induction turns generalizing world event with
  | nil => exact ⟨event, hrow, .kept⟩
  | cons turn turns ih =>
      obtain ⟨mid, hmid, hfirst⟩ := advances_pass h hrow
      obtain ⟨event', hrow', hlater⟩ := ih _ (works_pass h) hmid
      exact ⟨event', hrow', hfirst.trans hlater⟩

/-- Once nothing fails any more, calls of `publishPendingEvents` send every pending
event, once, and no other; the rows say so. -/
theorem publishPendingEvents_empties (h : Works world turns)
    (hturns : (world.outboxEvents.rows.filter isPending).length ≤
      turns.length * maxBatchSize) :
    (outbox maxBatchSize).Emptied world ((outbox maxBatchSize).run world turns) ∧
      ∀ id event, world.outboxEvents.row id = some event → ∃ event',
        ((outbox maxBatchSize).run world turns).outboxEvents.row id = some event' ∧
          Advances event event' := by
  refine ⟨Outbox.emptied_run h ?_, fun id event => advances_run world h⟩
  simpa [outbox, pending] using hturns

end Passes

section Sample

/-- Three pending events, the oldest of which has failed before, and one that was sent. -/
def sampleEvents : List OutboxEventEntity :=
  [(newEvent (idOf 1) "membership.premium-activated" "c-1" "m-1" "" 0 0).scheduleRetry 0,
    (newEvent (idOf 2) "user.premium-updated" "c-1" "m-1" "" 0 0).markPublished 5,
    newEvent (idOf 3) "membership.premium-activated" "c-2" "m-2" "" 10 10,
    newEvent (idOf 4) "user.premium-updated" "c-2" "m-2" "" 10 9]

def sampleWorld : World :=
  { World.init with
    outboxEvents := sampleEvents.foldl Table.insertIfAbsent World.init.outboxEvents }

def sampleTurn (publisher : String) (now : Int) : Turn where
  publisher := publisher
  now := now
  sentAt := fun n => now + n

theorem publishPendingEvents_empties_sample :
    (sampleWorld.outboxEvents.rows.filter isPending).length = 3 ∧
    (outbox 2).Emptied sampleWorld ((outbox 2).run sampleWorld
        [sampleTurn "first" 2000000000, sampleTurn "second" 2000000005]) ∧
      ∀ id event, sampleWorld.outboxEvents.row id = some event → ∃ event',
        ((outbox 2).run sampleWorld [sampleTurn "first" 2000000000,
          sampleTurn "second" 2000000005]).outboxEvents.row id = some event' ∧
          Advances event event' := by
  refine ⟨by decide, publishPendingEvents_empties ⟨?_, ?_⟩ (by decide)⟩
  · intro turn _
    rfl
  · intro turn hturn
    rcases List.mem_pair.mp hturn with rfl | rfl <;> decide

end Sample

end Modularis.Membership.Drain
