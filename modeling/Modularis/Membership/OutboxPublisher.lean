import Modularis.Foundation.StepSystem
import Modularis.Foundation.Table
import Modularis.Shared.Uuid

/-!
Any number of instances of `OutboxPublisher` over one `outbox_events`.  An
instance works on the copies that its query has loaded; the end of its transaction
writes every column of the events that it has changed.  Times are nanoseconds.
-/

namespace Modularis.Membership.OutboxPublisher

open Modularis.Foundation
open Modularis.Shared.Uuid

/-- Whether an event was sent. -/
inductive OutboxEventStatus where
  | pending
  | published
deriving DecidableEq, Repr

/-- A row of `outbox_events`. -/
structure OutboxEventEntity where
  id : UUID
  routingKey : String
  correlationId : String
  causationId : String
  payloadJson : String
  status : OutboxEventStatus
  attempts : Nat
  nextAttemptAt : Int
  createdAt : Int
  publishedAt : Option Int
deriving DecidableEq

abbrev OutboxEvents := Table OutboxEventEntity.id

/-- A row as the constructor makes it. -/
def newEvent (id : UUID) (routingKey correlationId causationId payloadJson : String)
    (nextAttemptAt createdAt : Int) : OutboxEventEntity where
  id := id
  routingKey := routingKey
  correlationId := correlationId
  causationId := causationId
  payloadJson := payloadJson
  status := .pending
  attempts := 0
  nextAttemptAt := nextAttemptAt
  createdAt := createdAt
  publishedAt := none

/-- The event was sent. -/
def OutboxEventEntity.markPublished (event : OutboxEventEntity) (now : Int) :
    OutboxEventEntity :=
  { event with
    status := .published
    publishedAt := some now }

/-- 2, 4, 8, 16 and then 30 seconds. -/
def backoffSeconds (attempts : Nat) : Nat := min 30 (2 ^ min attempts 5)

/-- The event is due again after a while that grows with its attempts. -/
def OutboxEventEntity.scheduleRetry (event : OutboxEventEntity) (now : Int) :
    OutboxEventEntity :=
  { event with
    attempts := event.attempts + 1
    nextAttemptAt := now + 1000000000 * backoffSeconds (event.attempts + 1) }

/-- `findByStatusAndNextAttemptAtLessThanEqualOrderByCreatedAtAsc`. -/
def findPendingEvents (events : OutboxEvents) (now : Int) (maxBatchSize : Nat) :
    List OutboxEventEntity :=
  events.select
    (fun event => decide (event.status = .pending ∧ event.nextAttemptAt ≤ now))
    (fun first second => first.createdAt ≤ second.createdAt) maxBatchSize

/-- A running `publishPendingEvents`: the events whose turn has not come and the
copies that it has changed. -/
structure Batch where
  pendingEvents : List OutboxEventEntity
  changed : List OutboxEventEntity
deriving DecidableEq

/-- The body of the loop. -/
def Batch.publish (batch : Batch) (sent : Bool) (now : Int) :
    Option (OutboxEventEntity × Batch) :=
  match batch.pendingEvents with
  | [] => none
  | event :: rest =>
      some (event,
        { pendingEvents := rest
          changed := batch.changed ++
            [if sent then event.markPublished now else event.scheduleRetry now] })

/-- An update of every column but the key. -/
def OutboxEventEntity.overwrite (event row : OutboxEventEntity) : OutboxEventEntity :=
  { event with id := row.id }

theorem OutboxEventEntity.id_overwrite (event row : OutboxEventEntity) :
    (event.overwrite row).id = row.id := rfl

/-- The updates at the end of a transaction; a row that is gone rolls it back. -/
def writeAll (events : OutboxEvents) : List OutboxEventEntity → Option OutboxEvents
  | [] => some events
  | event :: rest =>
      match events.row event.id with
      | none => none
      | some _ =>
          writeAll (events.modify event.id event.overwrite event.id_overwrite) rest

/-- `sent` is a history that nothing reads. -/
structure World where
  outboxEvents : OutboxEvents
  publishers : String → Option Batch
  sent : List UUID

/-- Nothing is stored and nobody publishes. -/
def World.init : World where
  outboxEvents := Table.empty
  publishers := fun _ => none
  sent := []

/-- An instance has another batch, or none. -/
def World.setPublisher (world : World) (publisher : String) (batch : Option Batch) :
    World :=
  { world with publishers := Function.update world.publishers publisher batch }

/-- `create` is the commit of a transaction that has stored a new event.  A send
fails if the payload cannot be read or `convertAndSend` throws. -/
inductive Event where
  | create (id : UUID) (routingKey correlationId causationId payloadJson : String)
      (nextAttemptAt createdAt : Int)
  | begin (publisher : String) (now : Int)
  | publish (publisher : String) (sent : Bool) (now : Int)
  | commit (publisher : String)
  | rollback (publisher : String)

/-- `none` where an instance cannot do what the event says. -/
def step (maxBatchSize : Nat) (world : World) : Event → Option World
  | .create id routingKey correlationId causationId payloadJson nextAttemptAt
      createdAt =>
      some
        { world with
          outboxEvents := world.outboxEvents.insertIfAbsent
            (newEvent id routingKey correlationId causationId payloadJson
              nextAttemptAt createdAt) }
  | .begin publisher now =>
      match world.publishers publisher with
      | some _ => none
      | none =>
          some (world.setPublisher publisher (some
            { pendingEvents := findPendingEvents world.outboxEvents now maxBatchSize
              changed := [] }))
  | .publish publisher sent now =>
      match (world.publishers publisher).bind (·.publish sent now) with
      | none => none
      | some (event, batch) =>
          some
            { world.setPublisher publisher (some batch) with
              sent := if sent then world.sent ++ [event.id] else world.sent }
  | .commit publisher =>
      match world.publishers publisher with
      | none => none
      | some batch =>
          if batch.pendingEvents = [] then
            (writeAll world.outboxEvents batch.changed).map fun events =>
              { world.setPublisher publisher none with outboxEvents := events }
          else none
  | .rollback publisher => some (world.setPublisher publisher none)

abbrev Run (maxBatchSize : Nat) := StepSystem.Run (step maxBatchSize) World.init

/-- The committed status of an event is `PUBLISHED`. -/
def Published (world : World) (id : UUID) : Prop :=
  ∃ event, world.outboxEvents.row id = some event ∧ event.status = .published

/-- In every state of a run what is published has been sent, and stays published in
every later one. -/
structure StaysPublished (trace : List (World × Event)) (world : World) : Prop where
  sent : ∀ w ∈ StepSystem.states trace world, ∀ id, Published w id → id ∈ w.sent
  stays : (StepSystem.states trace world).Pairwise fun earlier later =>
    ∀ id, Published earlier id → Published later id

/-- No event that the transaction would reschedule is published by now. -/
def KeepsPublished (world : World) (event : Event) : Prop :=
  ∀ publisher batch, event = .commit publisher →
    world.publishers publisher = some batch →
    ∀ changed ∈ batch.changed, changed.status = .pending →
      ¬ Published world changed.id

section Writes

variable {events events' : OutboxEvents} {changed : List OutboxEventEntity}

theorem overwrite_of_row {event row : OutboxEventEntity}
    (h : events.row event.id = some row) : event.overwrite row = event := by
  rw [OutboxEventEntity.overwrite, events.key_row _ row h]

theorem row_of_writeAll_other (h : writeAll events changed = some events') {id : UUID}
    (hid : id ∉ changed.map OutboxEventEntity.id) : events'.row id = events.row id := by
  induction changed generalizing events with
  | nil =>
      obtain rfl := Option.some.inj h
      rfl
  | cons event rest ih =>
      simp only [List.map_cons, List.mem_cons, not_or] at hid
      cases hrow : events.row event.id with
      | none =>
          rw [writeAll, hrow] at h
          cases h
      | some row =>
          rw [writeAll, hrow] at h
          rw [ih h hid.2, Table.row_modify, if_neg hid.1]

theorem row_of_writeAll (h : writeAll events changed = some events')
    (hnodup : (changed.map OutboxEventEntity.id).Nodup) {event : OutboxEventEntity}
    (hevent : event ∈ changed) : events'.row event.id = some event := by
  induction changed generalizing events with
  | nil => cases hevent
  | cons first rest ih =>
      obtain ⟨hnew, hrest⟩ := List.nodup_cons.mp hnodup
      cases hrow : events.row first.id with
      | none =>
          rw [writeAll, hrow] at h
          cases h
      | some row =>
          rw [writeAll, hrow] at h
          rcases List.mem_cons.mp hevent with rfl | hmem
          · rw [row_of_writeAll_other h hnew,
              Table.row_modify_of_some hrow event.overwrite event.id_overwrite, if_pos rfl,
              overwrite_of_row hrow]
          · exact ih h hrest hmem

end Writes

section Steps

variable {maxBatchSize : Nat} {world next : World} {event : Event}

/-- The copies of an instance: distinct events, those to come pending, those marked
published sent. -/
structure BatchOk (sent : List UUID) (batch : Batch) : Prop where
  pending : ∀ event ∈ batch.pendingEvents, event.status = .pending
  marked : ∀ event ∈ batch.changed, event.status = .published → event.id ∈ sent
  distinct : ((batch.changed ++ batch.pendingEvents).map OutboxEventEntity.id).Nodup

/-- What is published was sent, and batches hold copies of such rows. -/
structure Consistent (world : World) : Prop where
  published : ∀ id, Published world id → id ∈ world.sent
  batches : ∀ publisher batch, world.publishers publisher = some batch →
    BatchOk world.sent batch

theorem BatchOk.mono {sent sent' : List UUID} {batch : Batch} (h : BatchOk sent batch)
    (hsent : ∀ id ∈ sent, id ∈ sent') : BatchOk sent' batch where
  pending := h.pending
  marked := fun event hevent hstatus => hsent _ (h.marked event hevent hstatus)
  distinct := h.distinct

theorem batchOk_find (sent : List UUID) (events : OutboxEvents) (now : Int)
    (maxBatchSize : Nat) :
    BatchOk sent
      { pendingEvents := findPendingEvents events now maxBatchSize
        changed := [] } where
  pending := by
    intro event hevent
    have hwanted := (Table.mem_of_mem_select _ _ _ hevent).2
    exact (of_decide_eq_true hwanted).1
  marked := by simp
  distinct := Table.nodup_select _ _ _ _

theorem publish_cases {batch batch' : Batch} {sent : Bool} {now : Int}
    {event : OutboxEventEntity} (h : batch.publish sent now = some (event, batch')) :
    ∃ rest, batch.pendingEvents = event :: rest ∧ batch'.pendingEvents = rest ∧
      batch'.changed = batch.changed ++
        [if sent then event.markPublished now else event.scheduleRetry now] := by
  unfold Batch.publish at h
  cases hpending : batch.pendingEvents with
  | nil =>
      rw [hpending] at h
      cases h
  | cons first rest =>
      rw [hpending] at h
      obtain ⟨rfl, rfl⟩ := Prod.mk.inj (Option.some.inj h)
      exact ⟨rest, rfl, rfl, rfl⟩

theorem BatchOk.publish {history : List UUID} {batch batch' : Batch} {sent : Bool}
    {now : Int} {event : OutboxEventEntity} (hok : BatchOk history batch)
    (h : batch.publish sent now = some (event, batch')) :
    BatchOk (if sent then history ++ [event.id] else history) batch' := by
  obtain ⟨rest, hpending, hrest, hchanged⟩ := publish_cases h
  have hid : (if sent then event.markPublished now else event.scheduleRetry now).id =
      event.id := by
    cases sent <;> rfl
  constructor
  · intro other hother
    rw [hrest] at hother
    exact hok.pending other (hpending ▸ List.mem_cons_of_mem _ hother)
  · intro other hother hstatus
    rw [hchanged] at hother
    rcases List.mem_append.mp hother with hold | hnew
    · have hmem := hok.marked other hold hstatus
      cases sent
      · exact hmem
      · exact List.mem_append_left _ hmem
    · rw [List.mem_singleton.mp hnew] at hstatus ⊢
      cases sent with
      | false =>
          have hwas : event.status = .pending :=
            hok.pending event (hpending ▸ List.mem_cons_self)
          have hmarked : event.status = .published := hstatus
          rw [hwas] at hmarked
          cases hmarked
      | true => exact List.mem_append_right _ (List.mem_singleton_self _)
  · have hdistinct := hok.distinct
    rw [hpending, List.map_append, List.map_cons] at hdistinct
    rw [hchanged, hrest, List.append_assoc, List.map_append]
    simpa only [List.singleton_append, List.map_cons, hid] using hdistinct

theorem commit_cases {publisher : String}
    (h : step maxBatchSize world (.commit publisher) = some next) :
    ∃ batch events, world.publishers publisher = some batch ∧
      writeAll world.outboxEvents batch.changed = some events ∧
      next = { world.setPublisher publisher none with outboxEvents := events } := by
  simp only [step] at h
  cases hbatch : world.publishers publisher with
  | none =>
      rw [hbatch] at h
      cases h
  | some batch =>
      rw [hbatch] at h
      obtain ⟨_, hwrite⟩ := Option.ite_none_right_eq_some.mp h
      obtain ⟨events, hevents, rfl⟩ := Option.map_eq_some_iff.mp hwrite
      exact ⟨batch, events, rfl, hevents, rfl⟩

theorem row_of_step {id : UUID} {row : OutboxEventEntity}
    (hevent : ∀ publisher, event ≠ .commit publisher)
    (hstep : step maxBatchSize world event = some next)
    (hrow : world.outboxEvents.row id = some row) :
    next.outboxEvents.row id = some row := by
  cases event with
  | create =>
      obtain rfl := Option.some.inj hstep
      exact Table.row_insertIfAbsent_of_row _ hrow
  | begin publisher now =>
      simp only [step] at hstep
      split at hstep
      · cases hstep
      · obtain rfl := Option.some.inj hstep
        exact hrow
  | publish publisher sent now =>
      simp only [step] at hstep
      split at hstep
      · cases hstep
      · obtain rfl := Option.some.inj hstep
        exact hrow
  | commit publisher => exact absurd rfl (hevent publisher)
  | rollback publisher =>
      obtain rfl := Option.some.inj hstep
      exact hrow

theorem published_of_commit {batch : Batch} {events : OutboxEvents}
    (hok : BatchOk world.sent batch)
    (hwrite : writeAll world.outboxEvents batch.changed = some events) {id : UUID}
    {row : OutboxEventEntity} (hrow : events.row id = some row) :
    row ∈ batch.changed ∨ world.outboxEvents.row id = some row := by
  by_cases hid : id ∈ batch.changed.map OutboxEventEntity.id
  · obtain ⟨changed, hchanged, rfl⟩ := List.mem_map.mp hid
    have hdistinct := hok.distinct
    rw [List.map_append] at hdistinct
    have hnew := row_of_writeAll hwrite (List.nodup_append.mp hdistinct).1 hchanged
    obtain rfl := Option.some.inj (hnew.symm.trans hrow)
    exact .inl hchanged
  · rw [row_of_writeAll_other hwrite hid] at hrow
    exact .inr hrow

theorem batches_update {sent sent' : List UUID} {publishers : String → Option Batch}
    {publisher : String} {batch : Option Batch} (hsent : ∀ id ∈ sent, id ∈ sent')
    (hall : ∀ other b, publishers other = some b → BatchOk sent b)
    (hnew : ∀ b, batch = some b → BatchOk sent' b) :
    ∀ other b, Function.update publishers publisher batch other = some b →
      BatchOk sent' b := by
  intro other b hb
  by_cases hother : other = publisher
  · subst hother
    rw [Function.update_self] at hb
    exact hnew b hb
  · rw [Function.update_of_ne hother] at hb
    exact (hall other b hb).mono hsent

theorem consistent_step (h : Consistent world)
    (hstep : step maxBatchSize world event = some next) : Consistent next := by
  cases event with
  | create =>
      obtain rfl := Option.some.inj hstep
      refine ⟨?_, h.batches⟩
      rintro id ⟨row, hrow, hstatus⟩
      rcases Table.row_of_insertIfAbsent hrow with rfl | hold
      · cases hstatus
      · exact h.published id ⟨row, hold, hstatus⟩
  | begin publisher now =>
      simp only [step] at hstep
      split at hstep
      · cases hstep
      · obtain rfl := Option.some.inj hstep
        refine ⟨h.published, batches_update (fun _ => id) h.batches ?_⟩
        rintro b ⟨⟩
        exact batchOk_find _ _ _ _
  | publish publisher sent now =>
      simp only [step] at hstep
      split at hstep
      · cases hstep
      · rename_i published batch hpublish
        obtain rfl := Option.some.inj hstep
        obtain ⟨before, hbefore, hbatch⟩ := Option.bind_eq_some_iff.mp hpublish
        have hgrows : ∀ id ∈ world.sent,
            id ∈ (if sent then world.sent ++ [published.id] else world.sent) := by
          intro id hid
          cases sent
          · exact hid
          · exact List.mem_append_left _ hid
        refine ⟨fun id hid => hgrows id (h.published id hid),
          batches_update hgrows h.batches ?_⟩
        rintro b ⟨⟩
        exact (h.batches publisher before hbefore).publish hbatch
  | commit publisher =>
      obtain ⟨batch, events, hbatch, hwrite, rfl⟩ := commit_cases hstep
      have hok := h.batches publisher batch hbatch
      refine ⟨?_, batches_update (fun _ => id) h.batches (by simp)⟩
      rintro id ⟨row, hrow, hstatus⟩
      rcases published_of_commit hok hwrite hrow with hchanged | hold
      · have hid := events.key_row id row hrow
        rw [← hid]
        exact hok.marked row hchanged hstatus
      · exact h.published id ⟨row, hold, hstatus⟩
  | rollback publisher =>
      obtain rfl := Option.some.inj hstep
      exact ⟨h.published, batches_update (fun _ => id) h.batches (by simp)⟩

/-- A step leaves what is published published exactly if it is no commit of an event
to be sent again that is published by now. -/
theorem stays_step_iff (h : Consistent world)
    (hstep : step maxBatchSize world event = some next) :
    (∀ id, Published world id → Published next id) ↔ KeepsPublished world event := by
  by_cases hcommit : ∃ publisher, event = .commit publisher
  · obtain ⟨publisher, rfl⟩ := hcommit
    obtain ⟨batch, events, hbatch, hwrite, rfl⟩ := commit_cases hstep
    have hok := h.batches publisher batch hbatch
    have hdistinct := hok.distinct
    rw [List.map_append] at hdistinct
    have hnodup := (List.nodup_append.mp hdistinct).1
    constructor
    · rintro hkeeps _ _ ⟨⟩ hbatch' changed hchanged hpending hpublished
      obtain rfl := Option.some.inj (hbatch.symm.trans hbatch')
      obtain ⟨row, hrow, hstatus⟩ := hkeeps changed.id hpublished
      have hwritten := row_of_writeAll hwrite hnodup hchanged
      obtain rfl := Option.some.inj (hwritten.symm.trans hrow)
      rw [hpending] at hstatus
      cases hstatus
    · rintro hkeeps id ⟨row, hrow, hstatus⟩
      by_cases hid : id ∈ batch.changed.map OutboxEventEntity.id
      · obtain ⟨changed, hchanged, rfl⟩ := List.mem_map.mp hid
        refine ⟨changed, row_of_writeAll hwrite hnodup hchanged, ?_⟩
        cases hnew : changed.status with
        | published => rfl
        | pending =>
            exact absurd ⟨row, hrow, hstatus⟩
              (hkeeps publisher batch rfl hbatch changed hchanged hnew)
      · exact ⟨row, (row_of_writeAll_other hwrite hid).trans hrow, hstatus⟩
  · have hother : ∀ publisher, event ≠ .commit publisher :=
      fun publisher he => hcommit ⟨publisher, he⟩
    refine iff_of_true ?_ fun publisher batch he => absurd he (hother publisher)
    rintro id ⟨row, hrow, hstatus⟩
    exact ⟨row, row_of_step hother hstep hrow, hstatus⟩

theorem consistent_init : Consistent World.init where
  published := by
    rintro id ⟨row, hrow, _⟩
    cases hrow
  batches := nofun

end Steps

/-- What is published has been sent in every run.  It stays published exactly if no
instance commits an event to be sent again that is published by then. -/
theorem stays_published_iff (maxBatchSize : Nat) {trace : List (World × Event)}
    {world : World} (hrun : Run maxBatchSize trace world) :
    StaysPublished trace world ↔ ∀ p ∈ trace, KeepsPublished p.1 p.2 := by
  have hconsistent : ∀ w, StepSystem.Reachable (step maxBatchSize) World.init w →
      Consistent w := fun w hreach =>
    hreach.invariant consistent_init fun _ _ _ h hstep => consistent_step h hstep
  have hstays := hrun.pairwise_iff KeepsPublished (fun _ _ => id)
    (fun _ _ _ hrs hst id hid => hst id (hrs id hid))
    fun s _ _ hreach hstep => stays_step_iff (hconsistent s hreach) hstep
  constructor
  · exact fun h => hstays.mp h.stays
  · intro h
    refine ⟨fun w hw id hid => ?_, hstays.mpr h⟩
    obtain ⟨before, _, _, hbefore, _⟩ := hrun.split_states hw
    exact (hconsistent w ⟨before, hbefore⟩).published id hid

section Sample

def sampleId : UUID := .ofDigit (Fin.last 15)

def sampleCreate : Event :=
  .create sampleId "user.premium-updated" "c-1" "m-1" "" 0 0

/-- An id for each number below sixteen. -/
def idOf (n : Nat) : UUID := .ofDigit ⟨n % 16, Nat.mod_lt n (Nat.succ_pos 15)⟩

/-- One instance sends an event and fails to send the other, which the next instance sends
once it is due again. -/
def sampleEvents : List Event :=
  [sampleCreate, .create (idOf 1) "user.premium-updated" "c-2" "m-2" "" 0 1,
    .begin "first" 1, .publish "first" true 2, .publish "first" false 3, .commit "first",
    .begin "second" 2000000003, .publish "second" true 2000000004, .commit "second"]

/-- Another instance has read the same event and fails to send it. -/
def sampleRace : List Event :=
  [sampleCreate, .begin "first" 1, .begin "second" 1, .publish "first" true 2,
    .publish "second" false 3, .commit "first"]

theorem stays_published_iff_sample : ∃ world : World,
    world.sent = [sampleId, idOf 1] ∧
    (world.outboxEvents.rows.map fun event => (event.status, event.attempts)) =
      [(.published, 0), (.published, 1)] ∧
    (StaysPublished (StepSystem.traceOf (step 50) World.init sampleEvents) world ↔
      ∀ p ∈ StepSystem.traceOf (step 50) World.init sampleEvents,
        KeepsPublished p.1 p.2) := by
  obtain ⟨world, hworld, hsent, hrows⟩ : ∃ world,
    StepSystem.replay (step 50) World.init sampleEvents = some world ∧
    world.sent = [sampleId, idOf 1] ∧
    (world.outboxEvents.rows.map fun event => (event.status, event.attempts)) =
      [(.published, 0), (.published, 1)] := ⟨_, rfl, rfl, rfl⟩
  exact ⟨world, hsent, hrows, stays_published_iff 50 (StepSystem.run_of_replay hworld)⟩

/-- The later commit writes the stale copy of the other instance over the row. -/
theorem published_lost : ∃ (trace : List (World × Event)) (world : World),
    Run 50 trace world ∧ ¬ StaysPublished trace world := by
  obtain ⟨before, world, hbefore, hpublished, hcommit, hpending⟩ : ∃ before world,
      StepSystem.replay (step 50) World.init sampleRace = some before ∧
      (before.outboxEvents.row sampleId).map OutboxEventEntity.status =
        some .published ∧
      step 50 before (.commit "second") = some world ∧
      (world.outboxEvents.row sampleId).map OutboxEventEntity.status =
        some .pending := ⟨_, _, rfl, rfl, rfl, rfl⟩
  have hrun := (StepSystem.run_of_replay hbefore).snoc hcommit
  refine ⟨_, world, hrun, fun hstays => ?_⟩
  have hpairs := hstays.stays
  rw [StepSystem.states_snoc, List.pairwise_append] at hpairs
  obtain ⟨event, hevent, hstatus⟩ := Option.map_eq_some_iff.mp hpublished
  obtain ⟨event', hevent', hstatus'⟩ := hpairs.2.2 before
    (List.mem_append_right _ (List.mem_singleton_self _)) world
    (List.mem_singleton_self _) sampleId ⟨event, hevent, hstatus⟩
  rw [hevent', Option.map_some, hstatus'] at hpending
  cases hpending

end Sample

end Modularis.Membership.OutboxPublisher
