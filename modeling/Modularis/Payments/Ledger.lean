import Modularis.Payments.Aggregate

namespace Modularis.Payments.Ledger

open Modularis.Foundation
open Modularis.Shared.Messaging
open Modularis.Payments.Models
open Modularis.Payments.Repository
open Modularis.Payments.Operations
open Modularis.Payments.Handlers
open Modularis.Payments.Effects
open Modularis.Payments.Aggregate

/-- The number of messages with a routing key. -/
def countKey (routingKey : String) (messages : List PendingMessage) : Nat :=
  messages.countP fun message => message.routingKey = routingKey

/-- The ids of the status announcements. -/
def statusIds (messages : List PendingMessage) : List String :=
  (messages.filter fun message =>
    message.routingKey = "payment.status-updated").map
      fun message => message.body.messageId

@[simp] theorem countKey_append (routingKey : String)
    (messages added : List PendingMessage) :
    countKey routingKey (messages ++ added) =
      countKey routingKey messages + countKey routingKey added :=
  List.countP_append

@[simp] theorem countKey_stored (routingKey : String)
    (messages : List PendingMessage) :
    countKey routingKey (messages.map PendingMessage.stored) =
      countKey routingKey messages := by
  simp only [countKey, List.countP_map]
  rfl

@[simp] theorem statusIds_append (messages added : List PendingMessage) :
    statusIds (messages ++ added) = statusIds messages ++ statusIds added := by
  simp [statusIds]

@[simp] theorem statusIds_stored (messages : List PendingMessage) :
    statusIds (messages.map PendingMessage.stored) = statusIds messages := by
  simp only [statusIds, List.filter_map, List.map_map]
  rfl

theorem statusMessageId_inj {paymentId : String} {s t : PaymentStatus}
    {d e : DeliveryStatus}
    (h : statusMessageId paymentId s d = statusMessageId paymentId t e) :
    s = t ∧ d = e := by
  simp only [statusMessageId, String.append_assoc, String.append_right_inj] at h
  revert h
  cases s <;> cases t <;> cases d <;> cases e <;> decide

/-- The announcements that a payment in this state may have behind it. -/
def announceable : PaymentStatus → DeliveryStatus →
    List (PaymentStatus × DeliveryStatus)
  | .pending, _ => []
  | .processing, _ => [(.processing, .pending)]
  | .failed, _ => [(.processing, .pending), (.failed, .pending)]
  | .expired, _ =>
      [(.processing, .pending), (.failed, .pending), (.expired, .pending)]
  | .completed, .delivered =>
      [(.processing, .pending), (.failed, .pending), (.completed, .pending),
        (.completed, .delivered)]
  | .completed, _ =>
      [(.processing, .pending), (.failed, .pending), (.completed, .pending)]

/-- The write completed the payment. -/
def completes (commit : Commit) : Bool :=
  decide (commit.write.before.map Payment.paymentStatus ≠ some .completed) &&
    decide (commit.write.after.paymentStatus = .completed)

/-- All messages that commits have put into the outbox. -/
def messagesOf (commits : List Commit) : List PendingMessage :=
  commits.flatMap fun commit => commit.write.pushed

@[simp] theorem messagesOf_concat (commits : List Commit) (commit : Commit) :
    messagesOf (commits ++ [commit]) =
      messagesOf commits ++ commit.write.pushed := by
  simp [messagesOf]

/-- Who completed the payment, and by which event. -/
def CompletedBy (payment : Payment) (commits : List Commit) : Prop :=
  ∃ commit envelope, commits.filter completes = [commit] ∧
    commit.request = .callbackConfirmed envelope ∧
    payment.webhookEventIds = [envelope.payload.eventId]

/-- What the ledger of a payment contains. -/
structure LedgerOk (payment : Payment) (commits : List Commit) : Prop where
  requested : countKey "payment.delivery.requested" (messagesOf commits) =
    if payment.paymentStatus = .completed then 1 else 0
  confirmed : countKey "payment.confirmed" (messagesOf commits) =
    if payment.deliveryStatus = .delivered then 1 else 0
  nodup : (statusIds (messagesOf commits)).Nodup
  known : ∀ id ∈ statusIds (messagesOf commits),
    ∃ pair ∈ announceable payment.paymentStatus payment.deliveryStatus,
      id = statusMessageId payment.id pair.1 pair.2
  announcer : ∀ commit ∈ commits,
    statusMessageId payment.id .processing .pending ∈
      statusIds commit.write.pushed →
    ∃ other ∈ commits, Reserves other ∧ other.invocation = commit.invocation
  reserver : ∀ commit ∈ commits, ∀ other ∈ commits, Reserves commit →
    Reserves other → commit.invocation = other.invocation
  unreserved : payment.paymentStatus = .pending →
    ∀ commit ∈ commits, ¬ Reserves commit
  completed : payment.paymentStatus = .completed → CompletedBy payment commits
  uncompleted : payment.paymentStatus ≠ .completed →
    commits.filter completes = [] ∧ payment.webhookEventIds = []

theorem LedgerOk.not_announced {payment : Payment} {commits : List Commit}
    (h : LedgerOk payment commits) {status : PaymentStatus}
    {delivery : DeliveryStatus}
    (hnew : (status, delivery) ∉
      announceable payment.paymentStatus payment.deliveryStatus) :
    statusMessageId payment.id status delivery ∉
      statusIds (messagesOf commits) := by
  intro hmem
  obtain ⟨⟨s, d⟩, hpair, heq⟩ := h.known _ hmem
  obtain ⟨rfl, rfl⟩ := statusMessageId_inj heq
  exact hnew hpair

theorem LedgerOk.not_announced_of_holds {store : Store} {payment : Payment}
    (h : LedgerOk payment (commits store payment.id)) {invocation : String}
    (hholds : Holds store invocation payment.id) :
    statusMessageId payment.id .processing .pending ∉
      statusIds (messagesOf (commits store payment.id)) := by
  intro hmem
  obtain ⟨message, hmessage, hid⟩ := List.mem_map.mp hmem
  obtain ⟨hmessage, hkey⟩ := List.mem_filter.mp hmessage
  obtain ⟨commit, hcommit, hpushed⟩ := List.mem_flatMap.mp hmessage
  have hannounces : statusMessageId payment.id .processing .pending ∈
      statusIds commit.write.pushed :=
    List.mem_map.mpr ⟨message, List.mem_filter.mpr ⟨hpushed, hkey⟩, hid⟩
  obtain ⟨other, hother, hreserves, hsame⟩ := h.announcer commit hcommit hannounces
  obtain ⟨own, hown, hinvocation, hreservesOwn⟩ := hholds.reserved
  have hauthor : commit.invocation = invocation :=
    (hsame.symm.trans (h.reserver other hother own hown hreserves hreservesOwn)).trans
      hinvocation
  have hsilent := hholds.silent commit (List.mem_of_mem_filter hcommit) hauthor
  rw [hsilent] at hpushed
  cases hpushed

/-- What a write of the messages from `p` to `q` adds to the ledger; `news` is the
announcement among them. -/
structure Adds (p q : Payment) (pushed : List PendingMessage)
    (news : Option (PaymentStatus × DeliveryStatus)) : Prop where
  ids : statusIds pushed =
    news.toList.map fun pair => statusMessageId p.id pair.1 pair.2
  requested : (if p.paymentStatus = .completed then 1 else 0) +
      countKey "payment.delivery.requested" pushed =
    if q.paymentStatus = .completed then 1 else 0
  confirmed : (if p.deliveryStatus = .delivered then 1 else 0) +
      countKey "payment.confirmed" pushed =
    if q.deliveryStatus = .delivered then 1 else 0
  grows : ∀ pair ∈ announceable p.paymentStatus p.deliveryStatus,
    pair ∈ announceable q.paymentStatus q.deliveryStatus
  fits : ∀ pair ∈ news, pair ∈ announceable q.paymentStatus q.deliveryStatus

theorem statusIds_cons {message : PendingMessage}
    (hkey : message.routingKey = "payment.status-updated")
    (messages : List PendingMessage) :
    statusIds (message :: messages) =
      message.body.messageId :: statusIds messages := by
  simp [statusIds, hkey]

theorem statusIds_cons_of_ne {message : PendingMessage}
    (hkey : message.routingKey ≠ "payment.status-updated")
    (messages : List PendingMessage) :
    statusIds (message :: messages) = statusIds messages := by
  simp [statusIds, hkey]

theorem countKey_single {routingKey : String} {message : PendingMessage}
    (h : message.routingKey = routingKey) :
    countKey routingKey [message] = 1 := by
  simp [countKey, h]

theorem countKey_single_of_ne {routingKey other : String}
    {message : PendingMessage} (h : message.routingKey = other)
    (hne : other ≠ routingKey) : countKey routingKey [message] = 0 := by
  simp [countKey, h, hne]

theorem messageId_of_announces {payment : Payment} {status : PaymentStatus}
    {delivery : DeliveryStatus} {message : PendingMessage}
    (h : Announces payment status delivery message) :
    message.body.messageId = statusMessageId payment.id status delivery := by
  obtain ⟨_, envelope, hbody, hid, _⟩ := h
  rw [hbody]
  exact hid

theorem announcement_counts {payment : Payment} {status : PaymentStatus}
    {delivery : DeliveryStatus} {message : PendingMessage}
    (h : Announces payment status delivery message) :
    statusIds [message] = [statusMessageId payment.id status delivery] ∧
      countKey "payment.delivery.requested" [message] = 0 ∧
      countKey "payment.confirmed" [message] = 0 := by
  refine ⟨?_, ?_, ?_⟩
  · rw [statusIds_cons h.1, messageId_of_announces h]
    rfl
  · exact countKey_single_of_ne h.1 (by decide)
  · exact countKey_single_of_ne h.1 (by decide)

theorem mem_announceable {status : PaymentStatus} (delivery : DeliveryStatus)
    (h : status ≠ .pending) :
    (.processing, .pending) ∈ announceable status delivery := by
  cases status with
  | pending => exact absurd rfl h
  | completed => cases delivery <;> decide
  | _ => exact List.mem_cons_self

/-- What an open payment has behind it does not include its end, and both ends
may have it behind them. -/
theorem announceable_of_isOpen {status : PaymentStatus}
    (delivery : DeliveryStatus)
    (hopen : status ∈ [PaymentStatus.pending, .processing, .failed]) :
    (∀ pair ∈ announceable status delivery,
        pair ∈ announceable .expired .pending ∧
          pair ∈ announceable .completed .pending) ∧
      (.expired, .pending) ∉ announceable status delivery ∧
      (.completed, .pending) ∉ announceable status delivery := by
  cases status with
  | completed | expired => simp at hopen
  | _ => simp [announceable]

theorem adds_announced {p q : Payment} {status : PaymentStatus}
    {delivery : DeliveryStatus} {message : PendingMessage}
    {others : List PendingMessage} (hannounces : Announces p status delivery message)
    (hothers : statusIds others = [])
    (hrequested : (if p.paymentStatus = .completed then 1 else 0) +
        countKey "payment.delivery.requested" others =
      if q.paymentStatus = .completed then 1 else 0)
    (hconfirmed : (if p.deliveryStatus = .delivered then 1 else 0) +
        countKey "payment.confirmed" others =
      if q.deliveryStatus = .delivered then 1 else 0)
    (hgrows : ∀ pair ∈ announceable p.paymentStatus p.deliveryStatus,
      pair ∈ announceable q.paymentStatus q.deliveryStatus)
    (hfits : (status, delivery) ∈ announceable q.paymentStatus q.deliveryStatus) :
    Adds p q (message :: others) (some (status, delivery)) := by
  obtain ⟨hids, hnorequest, hnoconfirm⟩ := announcement_counts hannounces
  have hsplit : message :: others = [message] ++ others := rfl
  refine ⟨?_, ?_, ?_, hgrows, ?_⟩
  · rw [hsplit, statusIds_append, hids, hothers]
    rfl
  · rw [hsplit, countKey_append, hnorequest, Nat.zero_add]
    exact hrequested
  · rw [hsplit, countKey_append, hnoconfirm, Nat.zero_add]
    exact hconfirmed
  · rintro pair hpair
    obtain rfl := Option.some.inj hpair
    exact hfits

section Permitted

variable {store : Store} {invocation : String} {request : Request}
  {payment : Payment} {update : Update}

/-- An announcement is new to the payment, or is the one that the invocation which
reserved the payment makes. -/
def Attributed (store : Store) (invocation : String) (payment : Payment)
    (pair : PaymentStatus × DeliveryStatus) : Prop :=
  pair ≠ (.processing, .pending) ∧
      pair ∉ announceable payment.paymentStatus payment.deliveryStatus ∨
    pair = (.processing, .pending) ∧ Holds store invocation payment.id

theorem attributed_some {pair : PaymentStatus × DeliveryStatus}
    (h : Attributed store invocation payment pair) :
    ∀ other ∈ some pair, Attributed store invocation payment other := by
  rintro other hother
  obtain rfl := Option.some.inj hother
  exact h

theorem adds_of_permitted (hok : AggregateOk payment)
    (hledger : LedgerOk payment (commits store payment.id))
    (hpermitted : Permitted store invocation request payment update)
    (hfilter : update.filter payment = true) :
    ∃ news, Adds payment (update.apply payment) update.push news ∧
      ∀ pair ∈ news, Attributed store invocation payment pair := by
  cases hpermitted with
  | reserve now =>
      obtain ⟨hpending, _⟩ := of_decide_eq_true hfilter
      refine ⟨none, ⟨rfl, ?_, Nat.add_zero _, ?_, nofun⟩, nofun⟩
      · rw [hpending]
        rfl
      · rw [hpending]
        exact nofun
  | @announce now message hannounces hholds =>
      have hstatus : payment.paymentStatus ≠ .pending := by
        intro hpending
        obtain ⟨commit, hcommit, _, hreserves⟩ := hholds.reserved
        exact hledger.unreserved hpending commit hcommit hreserves
      refine ⟨some (.processing, .pending), ?_, attributed_some (.inr ⟨rfl, hholds⟩)⟩
      exact adds_announced hannounces rfl rfl rfl (fun _ hpair => hpair)
        (mem_announceable payment.deliveryStatus hstatus)
  | @simulate now message hkey =>
      refine ⟨none, ⟨?_, ?_, ?_, fun _ hpair => hpair, nofun⟩, nofun⟩
      · exact statusIds_cons_of_ne (by simp [hkey]) []
      · exact congrArg _ (countKey_single_of_ne hkey (by decide))
      · exact congrArg _ (countKey_single_of_ne hkey (by decide))
  | @fail reason now message hannounces =>
      have hprocessing : payment.paymentStatus = .processing :=
        of_decide_eq_true hfilter
      have hnew : (.failed, .pending) ∉
          announceable payment.paymentStatus payment.deliveryStatus := by
        rw [hprocessing]
        simp [announceable]
      refine ⟨some (.failed, .pending), ?_, attributed_some (.inl ⟨nofun, hnew⟩)⟩
      refine adds_announced hannounces rfl ?_ rfl ?_
        (List.mem_cons_of_mem _ List.mem_cons_self)
      · rw [hprocessing]
        rfl
      · rw [hprocessing]
        exact fun pair hpair => List.mem_append_left
          [(PaymentStatus.failed, DeliveryStatus.pending)] hpair
  | @expire now message hannounces =>
      obtain ⟨hgrows, hnew, _⟩ := announceable_of_isOpen
        payment.deliveryStatus (isOpen_iff.mp hfilter)
      refine ⟨some (.expired, .pending), ?_, attributed_some (.inl ⟨nofun, hnew⟩)⟩
      refine adds_announced hannounces rfl ?_ rfl
        (fun pair hpair => (hgrows pair hpair).1) ?_
      · rw [if_neg (ne_completed_of_isOpen hfilter)]
        rfl
      · simp [announceable, expiredUpdate, Update.apply]
  | @complete envelope confirmedAt now message delivery _ hannounces hrequests =>
      have hpending := hok.delivery_pending (ne_completed_of_isOpen hfilter)
      obtain ⟨hgrows, _, hnew⟩ := announceable_of_isOpen
        payment.deliveryStatus (isOpen_iff.mp hfilter)
      -- the update leaves the delivery status, which is still pending
      have hstate : announceable .completed payment.deliveryStatus =
          announceable .completed .pending := by rw [hpending]
      refine ⟨some (.completed, .pending), ?_, attributed_some (.inl ⟨nofun, hnew⟩)⟩
      refine adds_announced hannounces (statusIds_cons_of_ne (by simp [hrequests.1]) [])
        ?_ ?_ (fun pair hpair => ?_) ?_
      · rw [if_neg (ne_completed_of_isOpen hfilter), countKey_single hrequests.1]
        rfl
      · rw [countKey_single_of_ne hrequests.1 (by decide)]
        rfl
      · exact hstate ▸ (hgrows pair hpair).2
      · change _ ∈ announceable .completed payment.deliveryStatus
        rw [hstate]
        decide
  | @deliver now message confirmation hannounces hconfirms =>
      obtain ⟨hcompleted, hpending⟩ := of_decide_eq_true hfilter
      have hnew : (.completed, .delivered) ∉
          announceable payment.paymentStatus payment.deliveryStatus := by
        rw [hcompleted, hpending]
        decide
      refine ⟨some (.completed, .delivered), ?_, attributed_some (.inl ⟨nofun, hnew⟩)⟩
      refine adds_announced hannounces (statusIds_cons_of_ne (by simp [hconfirms.1]) [])
        ?_ ?_ ?_ ?_
      · rw [countKey_single_of_ne hconfirms.1 (by decide)]
        rfl
      · rw [hpending, countKey_single hconfirms.1]
        rfl
      · change ∀ pair ∈ announceable payment.paymentStatus payment.deliveryStatus,
          pair ∈ announceable payment.paymentStatus .delivered
        rw [hcompleted, hpending]
        decide
      · change _ ∈ announceable payment.paymentStatus .delivered
        rw [hcompleted]
        decide

/-- An update completes the payment with the event of its callback, or leaves the
completion and the events as they are. -/
theorem completion_of_permitted
    (hpermitted : Permitted store invocation request payment update)
    (hfilter : update.filter payment = true) :
    (payment.paymentStatus ≠ .completed ∧
        (update.apply payment).paymentStatus = .completed ∧
        ∃ envelope, request = .callbackConfirmed envelope ∧
          (update.apply payment).webhookEventIds =
            if envelope.payload.eventId ∈ payment.webhookEventIds then
              payment.webhookEventIds
            else payment.webhookEventIds ++ [envelope.payload.eventId]) ∨
      ((update.apply payment).paymentStatus = .completed ↔
          payment.paymentStatus = .completed) ∧
        (update.apply payment).webhookEventIds = payment.webhookEventIds := by
  cases hpermitted with
  | reserve now =>
      have hpending : payment.paymentStatus = .pending :=
        (of_decide_eq_true hfilter).1
      exact .inr ⟨iff_of_false nofun (by simp [hpending]), rfl⟩
  | announce | simulate | deliver => exact .inr ⟨Iff.rfl, rfl⟩
  | fail reason now =>
      have hprocessing : payment.paymentStatus = .processing :=
        of_decide_eq_true hfilter
      exact .inr ⟨iff_of_false nofun (by simp [hprocessing]), rfl⟩
  | expire now =>
      exact .inr ⟨iff_of_false nofun (ne_completed_of_isOpen hfilter), rfl⟩
  | complete confirmedAt now hrequest =>
      exact .inl ⟨ne_completed_of_isOpen hfilter, rfl, _, hrequest, rfl⟩

/-- The commit of an update. -/
def commitOf (invocation : String) (request : Request) (payment : Payment)
    (update : Update) : Commit where
  invocation := invocation
  request := request
  write :=
    { before := some payment
      after := update.apply payment
      pushed := update.push.map PendingMessage.stored }

theorem reserves_commitOf (h : Reserves (commitOf invocation request payment update)) :
    payment.paymentStatus = .pending ∧
      (update.apply payment).paymentStatus = .processing :=
  ⟨Option.some.inj h.1, h.2⟩

theorem completes_commitOf :
    completes (commitOf invocation request payment update) = true ↔
      payment.paymentStatus ≠ .completed ∧
        (update.apply payment).paymentStatus = .completed := by
  change (decide (some payment.paymentStatus ≠ some .completed) &&
    decide ((update.apply payment).paymentStatus = .completed)) = true ↔ _
  rw [Bool.and_eq_true, decide_eq_true_iff, decide_eq_true_iff, Ne,
    Option.some.injEq]

section Commits

variable {news : Option (PaymentStatus × DeliveryStatus)}

theorem messagesOf_commitOf (ledger : List Commit) :
    messagesOf (ledger ++ [commitOf invocation request payment update]) =
      messagesOf ledger ++ update.push.map PendingMessage.stored :=
  messagesOf_concat _ _

theorem statusIds_commitOf (hadds : Adds payment (update.apply payment) update.push news) :
    statusIds (update.push.map PendingMessage.stored) =
      news.toList.map fun pair => statusMessageId payment.id pair.1 pair.2 :=
  (statusIds_stored _).trans hadds.ids

theorem LedgerOk.nodup_concat (hledger : LedgerOk payment (commits store payment.id))
    (hnews : ∀ pair ∈ news, Attributed store invocation payment pair) :
    (statusIds (messagesOf (commits store payment.id)) ++
      news.toList.map fun pair => statusMessageId payment.id pair.1 pair.2).Nodup := by
  cases news with
  | none => simpa using hledger.nodup
  | some pair =>
      have hnew : statusMessageId payment.id pair.1 pair.2 ∉
          statusIds (messagesOf (commits store payment.id)) := by
        rcases hnews pair rfl with ⟨_, hnew⟩ | ⟨rfl, hholds⟩
        · exact hledger.not_announced hnew
        · exact hledger.not_announced_of_holds hholds
      simp only [Option.toList_some, List.map_cons, List.map_nil]
      rw [← List.concat_eq_append]
      exact hledger.nodup.concat hnew

theorem LedgerOk.announcer_concat
    (hledger : LedgerOk payment (commits store payment.id))
    (hadds : Adds payment (update.apply payment) update.push news)
    (hnews : ∀ pair ∈ news, Attributed store invocation payment pair)
    {commit : Commit}
    (hcommit : commit ∈ commits store payment.id ++
      [commitOf invocation request payment update])
    (hannounces : statusMessageId payment.id .processing .pending ∈
      statusIds commit.write.pushed) :
    ∃ other ∈ commits store payment.id, Reserves other ∧
      other.invocation = commit.invocation := by
  rcases List.mem_append.mp hcommit with hold | hnew
  · exact hledger.announcer commit hold hannounces
  · obtain rfl := List.mem_singleton.mp hnew
    change _ ∈ statusIds (update.push.map PendingMessage.stored) at hannounces
    rw [statusIds_commitOf hadds] at hannounces
    obtain ⟨pair, hpair, heq⟩ := List.mem_map.mp hannounces
    obtain ⟨hstatus, hdelivery⟩ := statusMessageId_inj heq
    rcases hnews pair (Option.mem_toList.mp hpair) with ⟨hne, _⟩ | ⟨_, hholds⟩
    · exact absurd (Prod.ext hstatus hdelivery) hne
    · obtain ⟨own, hown, hinvocation, hreserves⟩ := hholds.reserved
      exact ⟨own, hown, hreserves, hinvocation⟩

theorem LedgerOk.reserver_concat {ledger : List Commit} (hledger : LedgerOk payment ledger)
    {commit other : Commit}
    (hcommit : commit ∈ ledger ++ [commitOf invocation request payment update])
    (hother : other ∈ ledger ++ [commitOf invocation request payment update])
    (hreserves : Reserves commit) (hreservesOther : Reserves other) :
    commit.invocation = other.invocation := by
  have hfirst : Reserves (commitOf invocation request payment update) →
      ∀ commit ∈ ledger, ¬ Reserves commit :=
    fun hreserves => hledger.unreserved (reserves_commitOf hreserves).1
  rcases List.mem_append.mp hcommit with hold | hnew
  · rcases List.mem_append.mp hother with holdOther | hnewOther
    · exact hledger.reserver commit hold other holdOther hreserves hreservesOther
    · obtain rfl := List.mem_singleton.mp hnewOther
      exact absurd hreserves (hfirst hreservesOther commit hold)
  · obtain rfl := List.mem_singleton.mp hnew
    rcases List.mem_append.mp hother with holdOther | hnewOther
    · exact absurd hreservesOther (hfirst hreserves other holdOther)
    · rw [List.mem_singleton.mp hnewOther]

theorem pending_of_permitted
    (hpermitted : Permitted store invocation request payment update)
    (hfilter : update.filter payment = true)
    (hstatus : (update.apply payment).paymentStatus = .pending) :
    payment.paymentStatus = .pending := by
  rcases move_of_permitted hpermitted hfilter with hkept | hmoved
  · exact hkept.symm.trans hstatus
  · rw [hstatus] at hmoved
    generalize payment.paymentStatus = status at hmoved
    cases hmoved

theorem LedgerOk.unreserved_concat {ledger : List Commit}
    (hledger : LedgerOk payment ledger)
    (hpermitted : Permitted store invocation request payment update)
    (hfilter : update.filter payment = true)
    (hstatus : (update.apply payment).paymentStatus = .pending) {commit : Commit}
    (hcommit : commit ∈ ledger ++ [commitOf invocation request payment update]) :
    ¬ Reserves commit := by
  intro hreserves
  rcases List.mem_append.mp hcommit with hold | hnew
  · exact hledger.unreserved (pending_of_permitted hpermitted hfilter hstatus) commit hold
      hreserves
  · obtain rfl := List.mem_singleton.mp hnew
    cases hstatus.symm.trans (reserves_commitOf hreserves).2

theorem LedgerOk.completed_concat {ledger : List Commit}
    (hledger : LedgerOk payment ledger)
    (hpermitted : Permitted store invocation request payment update)
    (hfilter : update.filter payment = true)
    (hstatus : (update.apply payment).paymentStatus = .completed) :
    CompletedBy (update.apply payment)
      (ledger ++ [commitOf invocation request payment update]) := by
  rcases completion_of_permitted hpermitted hfilter with
    ⟨hopen, _, envelope, hrequest, hevents⟩ | ⟨hsame, hevents⟩
  · obtain ⟨hnone, hempty⟩ := hledger.uncompleted hopen
    have hcompletes : completes (commitOf invocation request payment update) = true :=
      completes_commitOf.mpr ⟨hopen, hstatus⟩
    refine ⟨commitOf invocation request payment update, envelope, ?_, hrequest, ?_⟩
    · rw [List.filter_append, hnone, List.filter_cons_of_pos hcompletes]
      rfl
    · rw [hevents, hempty]
      rfl
  · obtain ⟨commit, envelope, hfilterEq, hrequest, hid⟩ :=
      hledger.completed (hsame.mp hstatus)
    refine ⟨commit, envelope, ?_, hrequest, hevents.trans hid⟩
    have hcompletes : ¬ completes (commitOf invocation request payment update) = true :=
      fun h => (completes_commitOf.mp h).1 (hsame.mp hstatus)
    rw [List.filter_append, hfilterEq, List.filter_cons_of_neg hcompletes]
    rfl

theorem LedgerOk.uncompleted_concat {ledger : List Commit}
    (hledger : LedgerOk payment ledger)
    (hpermitted : Permitted store invocation request payment update)
    (hfilter : update.filter payment = true)
    (hstatus : (update.apply payment).paymentStatus ≠ .completed) :
    (ledger ++ [commitOf invocation request payment update]).filter completes = [] ∧
      (update.apply payment).webhookEventIds = [] := by
  have hcompletes : ¬ completes (commitOf invocation request payment update) = true :=
    fun h => hstatus (completes_commitOf.mp h).2
  rcases completion_of_permitted hpermitted hfilter with
    ⟨_, hcompleted, _⟩ | ⟨hsame, hevents⟩
  · exact absurd hcompleted hstatus
  · obtain ⟨hnone, hempty⟩ := hledger.uncompleted fun h => hstatus (hsame.mpr h)
    refine ⟨?_, hevents.trans hempty⟩
    rw [List.filter_append, hnone, List.filter_cons_of_neg hcompletes]
    rfl

end Commits

theorem ledgerOk_of_permitted (hok : AggregateOk payment)
    (hledger : LedgerOk payment (commits store payment.id))
    (hpermitted : Permitted store invocation request payment update)
    (hfilter : update.filter payment = true) :
    LedgerOk (update.apply payment) (commits store payment.id ++
      [commitOf invocation request payment update]) := by
  obtain ⟨news, hadds, hnews⟩ := adds_of_permitted hok hledger hpermitted hfilter
  have hids := statusIds_commitOf hadds
  exact
    { requested := by
        rw [messagesOf_commitOf, countKey_append, countKey_stored, hledger.requested]
        exact hadds.requested
      confirmed := by
        rw [messagesOf_commitOf, countKey_append, countKey_stored, hledger.confirmed]
        exact hadds.confirmed
      nodup := by
        rw [messagesOf_commitOf, statusIds_append, hids]
        exact hledger.nodup_concat hnews
      known := by
        intro id hid
        rw [messagesOf_commitOf, statusIds_append, hids, List.mem_append] at hid
        rw [update.id_apply]
        rcases hid with hold | hnew
        · obtain ⟨pair, hpair, rfl⟩ := hledger.known id hold
          exact ⟨pair, hadds.grows pair hpair, rfl⟩
        · obtain ⟨pair, hpair, rfl⟩ := List.mem_map.mp hnew
          exact ⟨pair, hadds.fits pair (Option.mem_toList.mp hpair), rfl⟩
      announcer := by
        intro commit hcommit hannounces
        rw [update.id_apply] at hannounces
        obtain ⟨other, hother, hreserves⟩ :=
          hledger.announcer_concat hadds hnews hcommit hannounces
        exact ⟨other, List.mem_append_left _ hother, hreserves⟩
      reserver := fun _ hcommit _ hother => hledger.reserver_concat hcommit hother
      unreserved := fun hstatus _ =>
        hledger.unreserved_concat hpermitted hfilter hstatus
      completed := hledger.completed_concat hpermitted hfilter
      uncompleted := hledger.uncompleted_concat hpermitted hfilter }

end Permitted

theorem countKey_of_forall {routingKey other : String}
    {messages : List PendingMessage}
    (h : ∀ message ∈ messages, message.routingKey = other)
    (hne : other ≠ routingKey) : countKey routingKey messages = 0 := by
  refine List.countP_eq_zero.mpr fun message hmessage => ?_
  simp [h message hmessage, hne]

theorem ledgerOk_of_fresh {payment : Payment} (h : Fresh payment)
    (invocation : String) (request : Request) :
    LedgerOk payment
      [{ invocation := invocation
         request := request
         write :=
          { before := none
            after := payment
            pushed := payment.pendingMessages } }] := by
  have hids : statusIds payment.pendingMessages = [] := by
    rw [statusIds, List.map_eq_nil_iff, List.filter_eq_nil_iff]
    intro message hmessage
    simp [h.messages message hmessage]
  have hmessages : payment.pendingMessages ++ [] = payment.pendingMessages :=
    List.append_nil _
  exact
    { requested := by
        change countKey _ (payment.pendingMessages ++ []) = _
        rw [hmessages, countKey_of_forall h.messages (by decide), h.status]
        rfl
      confirmed := by
        change countKey _ (payment.pendingMessages ++ []) = _
        rw [hmessages, countKey_of_forall h.messages (by decide), h.delivery]
        rfl
      nodup := by
        change (statusIds (payment.pendingMessages ++ [])).Nodup
        rw [hmessages, hids]
        exact List.nodup_nil
      known := by
        change ∀ id ∈ statusIds (payment.pendingMessages ++ []), _
        rw [hmessages, hids]
        exact nofun
      announcer := by
        intro commit hcommit hannounces
        obtain rfl := List.mem_singleton.mp hcommit
        change _ ∈ statusIds payment.pendingMessages at hannounces
        rw [hids] at hannounces
        cases hannounces
      reserver := by
        intro commit hcommit other _ hreserves
        obtain rfl := List.mem_singleton.mp hcommit
        cases hreserves.1
      unreserved := by
        intro _ commit hcommit hreserves
        obtain rfl := List.mem_singleton.mp hcommit
        cases hreserves.1
      completed := by
        intro hstatus
        rw [h.status] at hstatus
        cases hstatus
      uncompleted := by
        intro _
        refine ⟨?_, h.events⟩
        simp [completes, h.status] }

/-- Every payment agrees with its ledger. -/
structure StoreOk (store : Store) : Prop where
  payment : ∀ paymentId payment,
    store.payments.row paymentId = some payment →
      AggregateOk payment ∧ LedgerOk payment (commits store paymentId)
  absent : ∀ paymentId, store.payments.row paymentId = none →
    commits store paymentId = []

theorem storeOk_empty : StoreOk Store.empty where
  payment := by
    intro paymentId payment hrow
    cases hrow
  absent := fun _ _ => rfl

theorem storeOk_of_effect {invocation : String} {request : Request}
    {store store' : Store} (h : StoreOk store)
    (heffect : Effect invocation request store store') : StoreOk store' := by
  cases heffect with
  | kept => exact h
  | @created payment hfresh hnew =>
      refine ⟨fun paymentId p hp => ?_, fun paymentId hp => ?_⟩
      · rw [row_created hnew] at hp
        rw [commits_record_some]
        split at hp
        · rename_i hid
          obtain rfl := Option.some.inj hp
          rw [if_pos hid.symm, hid, h.absent payment.id hnew]
          exact ⟨aggregateOk_of_fresh hfresh,
            ledgerOk_of_fresh hfresh invocation request⟩
        · rename_i hid
          rw [if_neg (Ne.symm hid)]
          exact h.payment paymentId p hp
      · rw [row_created hnew] at hp
        rw [commits_record_some]
        split at hp
        · cases hp
        · rename_i hid
          rw [if_neg (Ne.symm hid)]
          exact h.absent paymentId hp
  | @updated payment update hold hfilter hpermitted =>
      refine ⟨fun paymentId p hp => ?_, fun paymentId hp => ?_⟩
      · rw [row_updated hold] at hp
        rw [commits_record_some, update.id_apply]
        split at hp
        · rename_i hid
          obtain rfl := Option.some.inj hp
          rw [if_pos hid.symm, hid]
          obtain ⟨haggregate, hledger⟩ := h.payment payment.id payment hold
          exact ⟨aggregateOk_of_permitted haggregate hpermitted hfilter,
            ledgerOk_of_permitted haggregate hledger hpermitted hfilter⟩
        · rename_i hid
          rw [if_neg (Ne.symm hid)]
          exact h.payment paymentId p hp
      · rw [row_updated hold] at hp
        rw [commits_record_some, update.id_apply]
        split at hp
        · cases hp
        · rename_i hid
          rw [if_neg (Ne.symm hid)]
          exact h.absent paymentId hp

end Modularis.Payments.Ledger
