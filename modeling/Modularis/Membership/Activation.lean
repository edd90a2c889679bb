import Modularis.Membership.Service

namespace Modularis.Membership.Activation

open Modularis.Foundation
open Modularis.Foundation.Program
open Modularis.Shared.Uuid
open Modularis.Membership.Database
open Modularis.Membership.Service

/-- The listeners over one database. -/
abbrev World := Pool Reply Nat PaymentConfirmedEventMessage Outcome Store

abbrev Event := Pool.Event Nat PaymentConfirmedEventMessage Choice

/-- Nothing was delivered yet. -/
def World.init : World := Pool.init Store.empty

/-- A delivery comes, its listener makes the next call, or its transaction is rolled back,
so that it may come again. -/
abbrev step : World → Event → Option World :=
  Pool.step handlePaymentConfirmed fun _ => act

abbrev Run := StepSystem.Run step World.init

/-- The user is stored as premium. -/
def Premium (db : MembershipDatabase) (userId : UUID) : Prop :=
  (db.memberships.row userId).map UserEntity.premium = some true

/-- A committed delivery carried the id of the user. -/
def Confirmed (store : Store) (userId : UUID) : Prop :=
  ∃ event ∈ store.committed, UUID.fromString event.payload.userId = some userId

/-- The outbox rows under a routing key about a user id. -/
def announcements (db : MembershipDatabase) (routingKey id : String) :
    List OutboxEventEntity :=
  db.outboxEvents.rows.filter fun event =>
    event.routingKey = routingKey ∧ event.payloadJson.payload.id = id

/-- The routing keys of the two announcements. -/
def premiumKeys : List String :=
  ["membership.premium-activated", "user.premium-updated"]

/-- Premium and its announcements. -/
structure Published (store : Store) : Prop where
  premium_iff : ∀ userId, Premium store.db userId ↔ Confirmed store userId
  once : ∀ routingKey ∈ premiumKeys, ∀ userId, Premium store.db userId →
    (announcements store.db routingKey userId.toString).length = 1
  none_else : ∀ routingKey ∈ premiumKeys, ∀ id,
    (∀ userId, Premium store.db userId → userId.toString ≠ id) →
      announcements store.db routingKey id = []

/-- Only premium users are stored. -/
structure StoreOk (store : Store) : Prop where
  premium : ∀ userId user, store.db.memberships.row userId = some user →
    user.premium = true
  published : Published store

/-- An outbox row that announces the user as premium. -/
structure AnnouncesPremium (userId : UUID) (routingKey : String)
    (event : OutboxEventEntity) : Prop where
  routingKey : event.routingKey = routingKey
  id : event.payloadJson.payload.id = userId.toString

theorem AnnouncesPremium.stored {userId : UUID} {routingKey : String}
    {event row : OutboxEventEntity} (h : AnnouncesPremium userId routingKey event)
    (hkey : routingKey ∈ premiumKeys) (hstored : event.stored = some row) :
    AnnouncesPremium userId routingKey row := by
  obtain ⟨_, hcolumn, _, _, hpayload⟩ := OutboxEventEntity.stored_eq_some_iff.mp hstored
  have hshort : ∀ key ∈ premiumKeys, key.length ≤ 128 := by decide
  rw [h.routingKey] at hcolumn
  exact ⟨Column.eq_of_length_le (hshort routingKey hkey) hcolumn, by rw [hpayload, h.id]⟩

/-- What one call does to the store. -/
inductive Effect (event : PaymentConfirmedEventMessage) (store : Store) :
    Store → Prop
  | kept : Effect event store store
  | seen {userId : UUID} {db : MembershipDatabase} :
      UUID.fromString event.payload.userId = some userId →
      Premium store.db userId → db.memberships = store.db.memberships →
      db.outboxEvents.rows = store.db.outboxEvents.rows →
      Effect event store { db := db, committed := store.committed ++ [event] }
  | activated {userId : UUID} {db : MembershipDatabase}
      {first second : OutboxEventEntity} :
      UUID.fromString event.payload.userId = some userId →
      store.db.memberships.row userId = none →
      db.memberships = store.db.memberships.insertIfAbsent
        { id := userId, premium := true } →
      db.outboxEvents.rows = store.db.outboxEvents.rows ++ [first, second] →
      AnnouncesPremium userId "membership.premium-activated" first →
      AnnouncesPremium userId "user.premium-updated" second →
      Effect event store { db := db, committed := store.committed ++ [event] }

section Effects

variable {event : PaymentConfirmedEventMessage} {s t : Store}

theorem premium_of_row {db : MembershipDatabase} {userId : UUID}
    {user : UserEntity} (h : db.memberships.row userId = some user) :
    Premium db userId ↔ user.premium = true := by
  simp [Premium, h]

theorem not_premium_of_none {db : MembershipDatabase} {userId : UUID}
    (h : db.memberships.row userId = none) : ¬Premium db userId := by
  simp [Premium, h]

theorem premium_congr {db db' : MembershipDatabase}
    (h : db'.memberships = db.memberships) (userId : UUID) :
    Premium db' userId ↔ Premium db userId := by
  rw [Premium, Premium, h]

theorem premium_inserted {db db' : MembershipDatabase} {userId : UUID}
    (hnew : db.memberships.row userId = none)
    (h : db'.memberships =
      db.memberships.insertIfAbsent { id := userId, premium := true })
    (other : UUID) : Premium db' other ↔ other = userId ∨ Premium db other := by
  rw [Premium, h, Table.row_insertIfAbsent_of_none hnew]
  by_cases hother : other = userId
  · simp [hother]
  · simp [hother, Premium]

theorem confirmed_append {userId : UUID}
    (h : UUID.fromString event.payload.userId = some userId)
    {db : MembershipDatabase} (other : UUID) :
    Confirmed { db := db, committed := s.committed ++ [event] } other ↔
      other = userId ∨ Confirmed s other := by
  simp only [Confirmed, List.mem_append, List.mem_singleton, or_and_right,
    exists_or, exists_eq_left, h, Option.some.injEq]
  rw [or_comm, eq_comm]

theorem premium_of_effect (h : Effect event s t) {userId : UUID}
    (hs : Premium s.db userId) : Premium t.db userId := by
  cases h with
  | kept => exact hs
  | seen _ _ hmemberships _ => exact (premium_congr hmemberships userId).mpr hs
  | activated _ hnew hmemberships _ _ _ =>
      exact (premium_inserted hnew hmemberships userId).mpr (.inr hs)

theorem announcements_congr {db db' : MembershipDatabase}
    (h : db'.outboxEvents.rows = db.outboxEvents.rows) (routingKey id : String) :
    announcements db' routingKey id = announcements db routingKey id := by
  rw [announcements, announcements, h]

theorem announcements_activated {db db' : MembershipDatabase} {userId : UUID}
    {first second : OutboxEventEntity}
    (hrows : db'.outboxEvents.rows = db.outboxEvents.rows ++ [first, second])
    (hfirst : AnnouncesPremium userId "membership.premium-activated" first)
    (hsecond : AnnouncesPremium userId "user.premium-updated" second)
    {routingKey : String} (hkey : routingKey ∈ premiumKeys) (id : String) :
    (announcements db' routingKey id).length =
      (announcements db routingKey id).length +
        if userId.toString = id then 1 else 0 := by
  rw [announcements, announcements, hrows, List.filter_append, List.length_append]
  congr 1
  by_cases hid : userId.toString = id
  · simp only [premiumKeys, List.mem_cons, List.not_mem_nil, or_false] at hkey
    rcases hkey with rfl | rfl
    · simp [List.filter, hfirst.routingKey, hfirst.id, hsecond.routingKey, hid]
    · simp [List.filter, hfirst.routingKey, hsecond.id, hsecond.routingKey, hid]
  · simp [List.filter, hfirst.id, hsecond.id, hid]

theorem published_of_seen {userId : UUID} {db : MembershipDatabase}
    (hs : Published s) (hevent : UUID.fromString event.payload.userId = some userId)
    (hpremium : Premium s.db userId) (hmemberships : db.memberships = s.db.memberships)
    (hrows : db.outboxEvents.rows = s.db.outboxEvents.rows) :
    Published { db := db, committed := s.committed ++ [event] } where
  premium_iff := by
    intro other
    rw [premium_congr hmemberships, confirmed_append hevent, hs.premium_iff]
    constructor
    · exact .inr
    · rintro (rfl | hother)
      · exact (hs.premium_iff other).mp hpremium
      · exact hother
  once := by
    intro routingKey hkey other hother
    rw [announcements_congr hrows]
    exact hs.once routingKey hkey other ((premium_congr hmemberships other).mp hother)
  none_else := by
    intro routingKey hkey id hid
    rw [announcements_congr hrows]
    refine hs.none_else routingKey hkey id fun other hother => ?_
    exact hid other ((premium_congr hmemberships other).mpr hother)

theorem published_of_activated {userId : UUID} {db : MembershipDatabase}
    {first second : OutboxEventEntity} (hs : Published s)
    (hevent : UUID.fromString event.payload.userId = some userId)
    (hnew : s.db.memberships.row userId = none)
    (hmemberships : db.memberships =
      s.db.memberships.insertIfAbsent { id := userId, premium := true })
    (hrows : db.outboxEvents.rows = s.db.outboxEvents.rows ++ [first, second])
    (hfirst : AnnouncesPremium userId "membership.premium-activated" first)
    (hsecond : AnnouncesPremium userId "user.premium-updated" second) :
    Published { db := db, committed := s.committed ++ [event] } where
  premium_iff := by
    intro other
    rw [premium_inserted hnew hmemberships, confirmed_append hevent, hs.premium_iff]
  once := by
    intro routingKey hkey other hother
    rw [announcements_activated hrows hfirst hsecond hkey]
    rcases (premium_inserted hnew hmemberships other).mp hother with rfl | hold
    · have hnone : announcements s.db routingKey other.toString = [] := by
        refine hs.none_else routingKey hkey _ fun third hthird hsame => ?_
        obtain rfl := toString_injective hsame
        exact not_premium_of_none hnew hthird
      simp [hnone]
    · have hne : userId.toString ≠ other.toString := by
        intro hsame
        obtain rfl := toString_injective hsame
        exact not_premium_of_none hnew hold
      simp [hs.once routingKey hkey other hold, hne]
  none_else := by
    intro routingKey hkey id hid
    have hpremium := premium_inserted hnew hmemberships
    have hne : userId.toString ≠ id := hid userId ((hpremium userId).mpr (.inl rfl))
    have hnone : announcements s.db routingKey id = [] :=
      hs.none_else routingKey hkey id fun other hother =>
        hid other ((hpremium other).mpr (.inr hother))
    have hlength := announcements_activated hrows hfirst hsecond hkey id
    rw [hnone, if_neg hne] at hlength
    exact List.length_eq_zero_iff.mp hlength

theorem storeOk_of_effect (hs : StoreOk s) (h : Effect event s t) : StoreOk t := by
  cases h with
  | kept => exact hs
  | seen hevent hpremium hmemberships hrows =>
      refine ⟨fun userId user hrow => ?_,
        published_of_seen hs.published hevent hpremium hmemberships hrows⟩
      exact hs.premium userId user (hmemberships ▸ hrow)
  | activated hevent hnew hmemberships hrows hfirst hsecond =>
      refine ⟨fun userId user hrow => ?_, published_of_activated hs.published
        hevent hnew hmemberships hrows hfirst hsecond⟩
      rw [hmemberships, Table.row_insertIfAbsent_of_none hnew] at hrow
      split at hrow
      · obtain rfl := Option.some.inj hrow
        rfl
      · exact hs.premium userId user hrow

theorem storeOk_empty : StoreOk Store.empty where
  premium := by simp [Store.empty, MembershipDatabase.empty]
  published :=
    { premium_iff := by
        simp [Premium, Confirmed, Store.empty, MembershipDatabase.empty]
      once := by simp [Premium, Store.empty, MembershipDatabase.empty]
      none_else := fun _ _ _ _ => rfl }

end Effects

section Rules

/-- Users stay premium, whatever the others do, and every call has one of the effects. -/
def rules : Pool.Rules (fun _ : Nat => act) where
  inv := StoreOk
  rely := fun _ s t => ∀ userId, Premium s.db userId → Premium t.db userId
  guar := fun _ => Effect
  ready := fun _ _ => True
  rely_refl := fun _ _ _ h => h
  rely_trans := fun _ _ _ _ hst htu userId h => htu userId (hst userId h)
  guar_refl := fun _ _ _ => .kept
  inv_of_guar := fun _ _ _ _ => storeOk_of_effect
  rely_of_guar := fun _ _ _ _ _ _ _ h _ => premium_of_effect h
  ready_of_rely := fun _ _ _ _ _ => trivial

variable {i : Nat} {event : PaymentConfirmedEventMessage} {s : Store} {α : Type}

/-- Safety of a program of the delivery `i`. -/
abbrev Keeps (i : Nat) (event : PaymentConfirmedEventMessage) (p : Program α)
    (s : Store) : Prop :=
  p.Safe (rules.contract i event) (fun _ _ => True) s

theorem keeps_ask {op : Op} {f : Reply op → Program α}
    (hop : ∀ t choice, (act event t op choice).2 = t)
    (h : ∀ t choice, (∀ userId, Premium s.db userId → Premium t.db userId) →
      StoreOk t → Keeps i event (f (act event t op choice).1) t) :
    Keeps i event (call op >>= f) s := by
  refine safe_perform_bind fun t hrely hok choice => ?_
  change Effect event t (act event t op choice).2 ∧
    Keeps i event (f (act event t op choice).1) (act event t op choice).2
  rw [hop]
  exact ⟨.kept, h t choice hrely hok⟩

theorem keeps_commit {writes : Writes}
    (h : ∀ t db, (∀ userId, Premium s.db userId → Premium t.db userId) →
      t.db.flush writes = some db →
      Effect event t { db := db, committed := t.committed ++ [event] }) :
    Keeps i event (commit writes) s := by
  refine safe_perform_bind fun t hrely _ choice => ?_
  constructor
  · change Effect event t (act event t (.commit writes) choice).2
    cases hflush : t.db.flush writes with
    | none =>
        simp only [act, hflush]
        exact .kept
    | some db =>
        simp only [act, hflush]
        exact h t db hrely hflush
  · split
    · exact fun _ _ _ => trivial
    · exact fun _ _ _ => trivial

theorem quiet_premiumMessage (type source : String) (user : UserEntity) :
    (premiumMessage type source user event).Quiet (act event) fun message =>
      message.payload.id = user.id.toString :=
  ⟨fun _ _ => rfl, fun _ => ⟨fun _ _ => rfl, fun _ => rfl⟩⟩

theorem quiet_publishOutboxEvent (routingKey : String) (payload : PremiumMessage) :
    (publishOutboxEvent routingKey payload event).Quiet (act event) fun row =>
      row.routingKey = routingKey ∧ row.payloadJson = payload :=
  ⟨fun _ _ => rfl, fun _ => ⟨rfl, rfl⟩⟩

theorem keeps_announce {routingKey source : String} {user : UserEntity}
    {f : OutboxEventEntity → Program α} (hok : StoreOk s)
    (h : ∀ row t, StoreOk t → AnnouncesPremium user.id routingKey row →
      Keeps i event (f row) t) :
    Keeps i event (do
      let message ← premiumMessage routingKey source user event
      let row ← publishOutboxEvent routingKey message event
      f row) s := by
  refine Quiet.safe_bind (quiet_premiumMessage routingKey source user) hok
    fun message t _ hok hid => ?_
  refine Quiet.safe_bind (quiet_publishOutboxEvent routingKey message) hok
    fun row u _ hok hrow => ?_
  exact h row u hok ⟨hrow.1, by rw [hrow.2, hid]⟩

theorem keeps_seen {receipt : ConsumedMessageReceiptEntity} {saved : Saved}
    {userId : UUID} (hevent : UUID.fromString event.payload.userId = some userId)
    (hpremium : Premium s.db userId) :
    Keeps i event (commit ⟨receipt, saved, none, []⟩) s := by
  refine keeps_commit fun t db hrely hflush => ?_
  obtain ⟨hmemberships, hrows⟩ := flush_receipt hflush
  exact .seen hevent (hrely userId hpremium) hmemberships hrows

theorem keeps_activated {receipt : ConsumedMessageReceiptEntity} {saved : Saved}
    {row : Option UserEntity} {userId : UUID} (hok : StoreOk s)
    (hevent : UUID.fromString event.payload.userId = some userId) :
    Keeps i event (do
      let activated ← premiumMessage "membership.premium-activated"
        "membership-service" { id := userId, premium := true } event
      let first ← publishOutboxEvent "membership.premium-activated" activated event
      let updated ← premiumMessage "user.premium-updated" "user-service"
        { id := userId, premium := true } event
      let second ← publishOutboxEvent "user.premium-updated" updated event
      commit ⟨receipt, saved, some ({ id := userId, premium := true }, merge row),
        [first, second]⟩) s := by
  refine keeps_announce hok fun first t hok hfirst => ?_
  refine keeps_announce hok fun second u hok hsecond => ?_
  refine keeps_commit fun v db _ hflush => ?_
  obtain ⟨hnew, hmemberships, rows, hstored, hrows⟩ := flush_new hflush
  obtain ⟨first', rest, hfirst', hrest, rfl⟩ := List.forall₂_cons_left_iff.mp hstored
  obtain ⟨second', rest, hsecond', hnil, rfl⟩ := List.forall₂_cons_left_iff.mp hrest
  obtain rfl := List.forall₂_nil_left_iff.mp hnil
  exact .activated hevent hnew hmemberships hrows
    (hfirst.stored (by simp [premiumKeys]) hfirst')
    (hsecond.stored (by simp [premiumKeys]) hsecond')

theorem keeps_handlePaymentConfirmed :
    Keeps i event (handlePaymentConfirmed event) s := by
  refine keeps_ask (fun _ _ => rfl) fun s _ _ _ => ?_
  cases hevent : UUID.fromString event.payload.userId with
  | none => exact fun _ _ _ => trivial
  | some userId =>
      refine keeps_ask (fun _ _ => rfl) fun s choice _ hok => ?_
      cases hfound : s.db.memberships.row userId with
      | some user =>
          have hpremium : user.premium = true := hok.premium userId user hfound
          simp only [act, hfound, Option.getD_some, hpremium, if_true]
          exact keeps_seen hevent ((premium_of_row hfound).mpr hpremium)
      | none =>
          simp only [act, hfound, Option.getD_none, Bool.false_eq_true, if_false]
          refine keeps_ask (fun _ _ => rfl) fun s _ _ hok => ?_
          exact keeps_activated hok hevent

end Rules

/-- A pool in which the store is in order and every delivery keeps the rules. -/
abbrev Sound (world : World) : Prop :=
  Pool.Orderly rules (fun _ _ _ _ => True) world

theorem sound_of_reachable {world : World}
    (h : StepSystem.Reachable step World.init world) : Sound world :=
  Pool.orderly_of_reachable (fun _ _ _ _ _ => keeps_handlePaymentConfirmed)
    storeOk_empty (fun _ => trivial) h

theorem premium_of_run {world later : World} {trace : List (World × Event)}
    (h : StepSystem.Reachable step World.init world)
    (hrun : StepSystem.Run step world trace later) {userId : UUID}
    (hpremium : Premium world.shared.db userId) :
    Premium later.shared.db userId := by
  induction hrun with
  | nil => exact hpremium
  | snoc hbefore hstep ih =>
      have hsound := sound_of_reachable (h.run hbefore)
      obtain ⟨_, hmoved⟩ :=
        hsound.step (fun _ _ _ _ _ => keeps_handlePaymentConfirmed) hstep
      cases hmoved with
      | kept hsame => rwa [hsame]
      | acted _ _ _ heffect => exact premium_of_effect heffect ih

/-- Whatever is delivered and however the transactions interleave: throughout the
run exactly the users of committed deliveries are premium, each of them was
announced once under both keys and nobody else was, and premium stays. -/
theorem premium_published_once {trace : List (World × Event)} {world : World}
    (hrun : Run trace world) :
    Published world.shared ∧ ∀ p ∈ trace, Published p.1.shared ∧
      ∀ userId, Premium p.1.shared.db userId →
        Premium world.shared.db userId := by
  refine ⟨(sound_of_reachable hrun.reachable).inv.published, fun p hp => ?_⟩
  obtain ⟨before, after, rfl⟩ := List.append_of_mem hp
  obtain ⟨next, hbefore, hstep, hafter⟩ := hrun.split rfl
  refine ⟨(sound_of_reachable hbefore.reachable).inv.published,
    fun userId hpremium => ?_⟩
  have hfirst : StepSystem.Run step p.1 [p] next := by
    simpa using StepSystem.Run.nil.snoc hstep
  exact premium_of_run hbefore.reachable (hfirst.append hafter) hpremium

section Sample

def sampleUuid (n : Fin 16) : UUID := .ofDigit n

def sampleConfirmed (paymentId messageId : String) :
    PaymentConfirmedEventMessage where
  messageId := messageId
  correlationId := "c-1"
  type := "payment.confirmed"
  payload :=
    { paymentId := paymentId
      userId := "00000000-0000-0000-0000-000000000000" }

/-- The calls of the delivery `i`, each of which draws another id. -/
def sampleCalls (i count : Nat) : List Event :=
  (List.finRange 16).take count |>.map fun n =>
    .act i { randomUUID := sampleUuid n, now := "2026-01-01T00:00:00Z" }

/-- Two payments of one user are confirmed side by side.  The second transaction
finds the membership taken; its delivery is handed out again. -/
def sampleEvents : List Event :=
  [.start 0 (sampleConfirmed "payment-1" "m-1"),
    .start 1 (sampleConfirmed "payment-2" "m-2")] ++
  sampleCalls 1 9 ++ sampleCalls 0 10 ++ sampleCalls 1 1 ++
  [.start 2 (sampleConfirmed "payment-2" "m-2")] ++ sampleCalls 2 3

theorem premium_published_once_sample : ∃ (world : World) (trace : _),
    Run trace world ∧ world.shared.committed.length = 2 ∧
    Premium world.shared.db (sampleUuid 0) ∧ Published world.shared := by
  obtain ⟨world, hworld, hcommitted, hpremium⟩ : ∃ world,
      StepSystem.replay step World.init sampleEvents = some world ∧
      world.shared.committed.length = 2 ∧
      Premium world.shared.db (sampleUuid 0) := ⟨_, rfl, rfl, rfl⟩
  have hrun := StepSystem.run_of_replay hworld
  exact ⟨world, _, hrun, hcommitted, hpremium, (premium_published_once hrun).1⟩

end Sample

end Modularis.Membership.Activation
