import Modularis.Payments.Changes
import Modularis.Payments.Lifecycle

namespace Modularis.Payments.Announcements

open Modularis.Foundation
open Modularis.Foundation.Program
open Modularis.Shared.Messaging
open Modularis.Payments.Models
open Modularis.Payments.Repository
open Modularis.Payments.Operations
open Modularis.Payments.Handlers
open Modularis.Payments.Effects
open Modularis.Payments.Aggregate
open Modularis.Payments.Ledger
open Modularis.Payments.Changes
open Modularis.Payments.Interleaving
open Modularis.Payments.Lifecycle (sampleService sampleCreate sampleCallback
  sampleChoice)

/-- The two statuses of a payment. -/
abbrev Pair := PaymentStatus × DeliveryStatus

/-- The statuses that a payment has. -/
def pairOf (payment : Payment) : Pair :=
  (payment.paymentStatus, payment.deliveryStatus)

/-- The pair that no message announces. -/
def initial : Pair := (.pending, .pending)

/-- The pair that a write takes its payment to, if it is another one. -/
def entered (commit : Commit) : Option Pair :=
  if commit.write.before.map pairOf = some (pairOf commit.write.after) then none
  else some (pairOf commit.write.after)

/-- The pairs that a payment went through. -/
def path (commits : List Commit) : List Pair := commits.filterMap entered

/-- The statuses that a message announces, if it announces any. -/
def announcedPair (message : PendingMessage) : Option Pair :=
  if message.routingKey = "payment.status-updated" then
    match message.body with
    | .statusUpdated envelope =>
        some (envelope.payload.paymentStatus, envelope.payload.deliveryStatus)
    | _ => none
  else none

/-- The announced pairs, in the order of the messages. -/
def announced (messages : List PendingMessage) : List Pair :=
  messages.filterMap announcedPair

/-- The announcements of each payment are in the order of its statuses. -/
def InOrder (store : Store) : Prop :=
  ∀ paymentId payment, store.payments.row paymentId = some payment →
    (announced payment.pendingMessages).Sublist (path (commits store paymentId))

/-- The last announcement of each payment is that of its current pair. -/
def UpToDate (store : Store) : Prop :=
  ∀ paymentId payment, store.payments.row paymentId = some payment →
    (announced payment.pendingMessages).getLast? =
      if pairOf payment = initial then none else some (pairOf payment)

section Lists

@[simp] theorem path_append (commits added : List Commit) :
    path (commits ++ added) = path commits ++ path added :=
  List.filterMap_append

@[simp] theorem announced_append (messages added : List PendingMessage) :
    announced (messages ++ added) = announced messages ++ announced added :=
  List.filterMap_append

@[simp] theorem announced_stored (messages : List PendingMessage) :
    announced (messages.map PendingMessage.stored) = announced messages := by
  simp only [announced, List.filterMap_map]
  rfl

theorem announcedPair_of_ne {message : PendingMessage}
    (h : message.routingKey ≠ "payment.status-updated") :
    announcedPair message = none := if_neg h

theorem announcedPair_of_announces {payment : Payment} {status : PaymentStatus}
    {delivery : DeliveryStatus} {message : PendingMessage}
    (h : Announces payment status delivery message) :
    announcedPair message = some (status, delivery) := by
  obtain ⟨hkey, envelope, hbody, _, _, _, rfl, rfl⟩ := h
  simp [announcedPair, hkey, hbody]

theorem announced_single {payment : Payment} {status : PaymentStatus}
    {delivery : DeliveryStatus} {message : PendingMessage}
    (h : Announces payment status delivery message) :
    announced [message] = [(status, delivery)] := by
  simp [announced, announcedPair_of_announces h]

theorem announced_pair {payment : Payment} {status : PaymentStatus}
    {delivery : DeliveryStatus} {message other : PendingMessage}
    (h : Announces payment status delivery message)
    (hother : other.routingKey ≠ "payment.status-updated") :
    announced [message, other] = [(status, delivery)] := by
  simp [announced, announcedPair_of_announces h, announcedPair_of_ne hother]

theorem announced_of_statusIds {messages : List PendingMessage}
    (h : statusIds messages = []) : announced messages = [] := by
  simp only [statusIds, List.map_eq_nil_iff, List.filter_eq_nil_iff] at h
  refine List.filterMap_eq_nil_iff.mpr fun message hmessage => ?_
  exact announcedPair_of_ne (by simpa using h message hmessage)

end Lists

section Kinds

variable {store : Store} {invocation : String} {request : Request}
  {payment : Payment} {update : Update}

/-- What an update does to the pair of its payment and to the announcements. -/
inductive Kind (store : Store) (invocation : String) (payment : Payment)
    (update : Update) : Prop
  | reserves : payment.paymentStatus = .pending →
      pairOf (update.apply payment) = (.processing, .pending) →
      announced update.push = [] → Kind store invocation payment update
  | moves (pair : Pair) : pairOf (update.apply payment) = pair →
      pairOf payment ≠ pair → pair.1 ≠ .processing →
      announced update.push = [pair] → Kind store invocation payment update
  | announces : pairOf (update.apply payment) = pairOf payment →
      announced update.push = [(.processing, .pending)] →
      Holds store invocation payment.id → Kind store invocation payment update
  | keeps : pairOf (update.apply payment) = pairOf payment →
      announced update.push = [] → Kind store invocation payment update

theorem pairOf_of_open (hok : AggregateOk payment)
    (hopen : payment.paymentStatus ≠ .completed) :
    pairOf payment = (payment.paymentStatus, .pending) := by
  rw [pairOf, hok.delivery_pending hopen]

theorem kind_of_permitted (hok : AggregateOk payment)
    (hpermitted : Permitted store invocation request payment update)
    (hfilter : update.filter payment = true) :
    Kind store invocation payment update := by
  cases hpermitted with
  | reserve now =>
      obtain ⟨hpending, _⟩ := of_decide_eq_true hfilter
      have hdelivery := hok.delivery_pending (by simp [hpending])
      exact .reserves hpending (congrArg _ hdelivery) rfl
  | announce now hannounces hholds =>
      exact .announces rfl (announced_single hannounces) hholds
  | @simulate now message hkey =>
      refine .keeps rfl ?_
      change announced [message] = []
      simp [announced, announcedPair, hkey]
  | fail reason now hannounces =>
      have hprocessing : payment.paymentStatus = .processing :=
        of_decide_eq_true hfilter
      have hdelivery := hok.delivery_pending (by simp [hprocessing])
      refine .moves (.failed, .pending) (congrArg _ hdelivery) ?_ (by decide)
        (announced_single hannounces)
      simp [pairOf, hprocessing]
  | expire now hannounces =>
      have hdelivery := hok.delivery_pending (ne_completed_of_isOpen hfilter)
      refine .moves (.expired, .pending) (congrArg _ hdelivery) ?_ (by decide)
        (announced_single hannounces)
      have hopen := isOpen_iff.mp hfilter
      intro hsame
      rw [show payment.paymentStatus = .expired from congrArg Prod.fst hsame] at hopen
      simp at hopen
  | complete confirmedAt now _ hannounces hdelivers =>
      have hopen := ne_completed_of_isOpen hfilter
      have hdelivery := hok.delivery_pending hopen
      refine .moves (.completed, .pending) (congrArg _ hdelivery) ?_ (by decide)
        (announced_pair hannounces (by simp [hdelivers.1]))
      exact fun hsame => hopen (congrArg Prod.fst hsame)
  | deliver now hannounces hconfirms =>
      obtain ⟨hcompleted, hpending⟩ := of_decide_eq_true hfilter
      refine .moves (.completed, .delivered) ?_ ?_ (by decide)
        (announced_pair hannounces (by simp [hconfirms.1]))
      · exact Prod.ext hcompleted rfl
      · simp [pairOf, hpending]

/-- The invocation reserved the payment and has told its outbox nothing. -/
def Owes (commits : List Commit) (invocation : String) : Prop :=
  (∃ commit ∈ commits, commit.invocation = invocation ∧ Reserves commit) ∧
    ∀ commit ∈ commits, commit.invocation = invocation → commit.write.pushed = []

theorem owes_of_holds (h : Holds store invocation payment.id) :
    Owes (commits store payment.id) invocation :=
  ⟨h.reserved, fun commit hcommit => h.silent commit (List.mem_of_mem_filter hcommit)⟩

theorem owes_of_append {commits : List Commit} {commit : Commit}
    (hreserves : ¬Reserves commit) {i : String}
    (h : Owes (commits ++ [commit]) i) : Owes commits i := by
  obtain ⟨⟨own, hown, hinvocation, hreservesOwn⟩, hsilent⟩ := h
  refine ⟨⟨own, ?_, hinvocation, hreservesOwn⟩, fun other hother =>
    hsilent other (List.mem_append_left _ hother)⟩
  rcases List.mem_append.mp hown with hold | hnew
  · exact hold
  · obtain rfl := List.mem_singleton.mp hnew
    exact absurd hreservesOwn hreserves

/-- What the announcements of a payment tell of its path: all of it, or all but a
reservation that is still to be announced. -/
inductive Told (commits : List Commit) : Prop
  | all : path commits = initial :: announced (messagesOf commits) →
      (∀ i, ¬Owes commits i) → Told commits
  | owed : path commits =
        initial :: (.processing, .pending) :: announced (messagesOf commits) →
      (∀ pair ∈ announced (messagesOf commits), pair.1 ≠ .processing) →
      (∃ commit ∈ commits, Reserves commit) → Told commits

/-- A payment beside its writes. -/
structure Narrated (payment : Payment) (commits : List Commit) : Prop where
  current : (path commits).getLast? = some (pairOf payment)
  outbox : payment.pendingMessages = messagesOf commits
  told : Told commits

theorem entered_commitOf (invocation : String) (request : Request)
    (payment : Payment) (update : Update) :
    path [commitOf invocation request payment update] =
      if pairOf (update.apply payment) = pairOf payment then []
      else [pairOf (update.apply payment)] := by
  simp only [path, entered, commitOf, Option.map_some, Option.some.injEq,
    List.filterMap_cons, List.filterMap_nil, eq_comm]
  split <;> rfl

section Told

variable {commits : List Commit} {commit : Commit}

theorem told_of_enters (h : Told commits)
    (hpushed : announced commit.write.pushed = path [commit])
    (hother : ∀ pair ∈ path [commit], pair.1 ≠ .processing) (hreserves : ¬Reserves commit) :
    Told (commits ++ [commit]) := by
  cases h with
  | all htold hnobody =>
      refine .all ?_ fun i howes => hnobody i (owes_of_append hreserves howes)
      simp [hpushed, htold]
  | owed htold hnew hreserved =>
      obtain ⟨own, hown, hreservesOwn⟩ := hreserved
      refine .owed ?_ ?_ ⟨own, List.mem_append_left _ hown, hreservesOwn⟩
      · simp [hpushed, htold]
      · intro pair hpair
        rw [messagesOf_concat, announced_append, hpushed] at hpair
        exact (List.mem_append.mp hpair).elim (hnew pair) (hother pair)

theorem told_of_reserves (h : Told commits)
    (hpath : path [commit] = [(.processing, .pending)])
    (hpushed : announced commit.write.pushed = [])
    (hsilent : announced (messagesOf commits) = [])
    (hfirst : ∀ other ∈ commits, ¬Reserves other) (hreserves : Reserves commit) :
    Told (commits ++ [commit]) := by
  cases h with
  | all htold _ =>
      refine .owed ?_ ?_ ⟨commit, by simp, hreserves⟩
      · simp [hpath, hpushed, htold, hsilent]
      · simp [hpushed, hsilent]
  | owed _ _ hreserved =>
      obtain ⟨own, hown, hreservesOwn⟩ := hreserved
      exact absurd hreservesOwn (hfirst own hown)

theorem told_of_announces (h : Told commits) {i : String} (howes : Owes commits i)
    (hcurrent : (path commits).getLast? = some (.processing, .pending))
    (hpath : path [commit] = [])
    (hpushed : announced commit.write.pushed = [(.processing, .pending)])
    (hauthor : commit.invocation = i) (hreserves : ¬Reserves commit)
    (hunique : ∀ own ∈ commits, ∀ other ∈ commits, Reserves own → Reserves other →
      own.invocation = other.invocation) : Told (commits ++ [commit]) := by
  cases h with
  | all _ hnobody => exact absurd howes (hnobody i)
  | owed htold hnew _ =>
      have hsilent : announced (messagesOf commits) = [] := by
        cases hannounced : announced (messagesOf commits) with
        | nil => rfl
        | cons first rest =>
            rw [htold, hannounced, List.getLast?_cons_cons,
              List.getLast?_cons_cons] at hcurrent
            rw [hannounced] at hnew
            exact absurd rfl (hnew _ (List.mem_of_getLast? hcurrent))
      refine .all ?_ fun j howesLater => ?_
      · simp [hpath, hpushed, htold, hsilent]
      · obtain ⟨⟨own, hown, hinvocation, hreservesOwn⟩, _⟩ := howes
        obtain ⟨⟨other, hother, hinvocationOther, hreservesOther⟩, _⟩ :=
          owes_of_append hreserves howesLater
        have hsame : j = i := by
          rw [← hinvocation, ← hinvocationOther]
          exact hunique other hother own hown hreservesOther hreservesOwn
        have hempty := howesLater.2 commit (by simp) (hauthor.trans hsame.symm)
        rw [hempty] at hpushed
        cases hpushed

end Told

theorem not_reserves_of_same (h : pairOf (update.apply payment) = pairOf payment) :
    ¬Reserves (commitOf invocation request payment update) := by
  intro hreserves
  obtain ⟨hpending, hprocessing⟩ := reserves_commitOf hreserves
  have hstatus : (update.apply payment).paymentStatus = payment.paymentStatus :=
    congrArg Prod.fst h
  rw [hpending, hprocessing] at hstatus
  cases hstatus

theorem pendingMessages_of_permitted
    (hpermitted : Permitted store invocation request payment update) :
    (update.apply payment).pendingMessages =
      payment.pendingMessages ++ update.push.map PendingMessage.stored := by
  cases hpermitted with
  | _ => rfl

theorem narrated_of_permitted (hok : AggregateOk payment)
    (hledger : LedgerOk payment (commits store payment.id))
    (h : Narrated payment (commits store payment.id))
    (hpermitted : Permitted store invocation request payment update)
    (hfilter : update.filter payment = true)
    (htime : Holds store invocation payment.id → update.push ≠ [] →
      payment.paymentStatus = .processing) :
    Narrated (update.apply payment) (commits store payment.id ++
      [commitOf invocation request payment update]) := by
  have hpath := entered_commitOf invocation request payment update
  have hpushed : announced (commitOf invocation request payment update).write.pushed =
      announced update.push := announced_stored _
  constructor
  · rw [path_append, hpath]
    split
    · rename_i hsame
      rw [List.append_nil, hsame]
      exact h.current
    · simp
  · rw [pendingMessages_of_permitted hpermitted, messagesOf_concat, h.outbox]
    rfl
  · cases kind_of_permitted hok hpermitted hfilter with
    | reserves hpending hpair hnone =>
        have hne : pairOf (update.apply payment) ≠ pairOf payment := by
          rw [hpair]
          simp [pairOf, hpending]
        have hids : statusIds (messagesOf (commits store payment.id)) = [] := by
          refine List.eq_nil_iff_forall_not_mem.mpr fun id hid => ?_
          obtain ⟨pair, hmem, _⟩ := hledger.known id hid
          rw [hpending] at hmem
          cases hmem
        rw [if_neg hne, hpair] at hpath
        refine told_of_reserves h.told hpath (hpushed.trans hnone)
          (announced_of_statusIds hids) (hledger.unreserved hpending) ⟨?_, ?_⟩
        · exact congrArg some hpending
        · exact congrArg Prod.fst hpair
    | moves pair hpair hne hother hnews =>
        rw [if_neg (by rw [hpair]; exact Ne.symm hne), hpair] at hpath
        refine told_of_enters h.told ((hpushed.trans hnews).trans hpath.symm)
          (by simpa [hpath] using hother) ?_
        intro hreserves
        rw [← hpair] at hother
        exact hother (reserves_commitOf hreserves).2
    | announces hsame hnews hholds =>
        rw [if_pos hsame] at hpath
        have hprocessing := htime hholds (by rintro hnil; simp [hnil, announced] at hnews)
        have hcurrent := h.current
        rw [pairOf_of_open hok (by simp [hprocessing]), hprocessing] at hcurrent
        refine told_of_announces h.told (owes_of_holds hholds) hcurrent hpath
          (hpushed.trans hnews) rfl (not_reserves_of_same hsame) hledger.reserver
    | keeps hsame hnews =>
        rw [if_pos hsame] at hpath
        exact told_of_enters h.told ((hpushed.trans hnews).trans hpath.symm)
          (by simp [hpath]) (not_reserves_of_same hsame)

end Kinds

section Stores

variable {invocation : String} {request : Request} {store store' : Store}

/-- Every payment is what its commits have made of it. -/
def AllNarrated (store : Store) : Prop :=
  ∀ paymentId payment, store.payments.row paymentId = some payment →
    Narrated payment (commits store paymentId)

theorem narrated_of_fresh {payment : Payment} (h : Fresh payment)
    (invocation : String) (request : Request) :
    Narrated payment
      [{ invocation := invocation
         request := request
         write :=
          { before := none
            after := payment
            pushed := payment.pendingMessages } }] := by
  have hpair : pairOf payment = initial := by simp [pairOf, h.status, h.delivery, initial]
  have hannounced : announced payment.pendingMessages = [] := by
    refine List.filterMap_eq_nil_iff.mpr fun message hmessage => ?_
    exact announcedPair_of_ne (by simp [h.messages message hmessage])
  constructor
  · simp [path, entered]
  · simp [messagesOf]
  · refine .all ?_ fun i howes => ?_
    · simp [path, entered, messagesOf, hpair, hannounced]
    · obtain ⟨⟨commit, hcommit, _, hreserves⟩, _⟩ := howes
      obtain rfl := List.mem_singleton.mp hcommit
      cases hreserves.1

theorem narrated_of_effect (hok : StoreOk store) (h : AllNarrated store)
    (heffect : Effect invocation request store store')
    (htime : ∀ commit, store'.history = store.history ++ [commit] →
      commit.write.pushed ≠ [] → ∀ payment,
      store.payments.row payment.id = some payment →
      Holds store invocation payment.id → payment.paymentStatus = .processing) :
    AllNarrated store' := by
  intro paymentId q hq
  cases heffect with
  | kept => exact h paymentId q hq
  | @created payment hfresh hnew =>
      rw [row_created hnew] at hq
      rw [commits_record_some]
      split at hq
      · rename_i hid
        obtain rfl := Option.some.inj hq
        rw [if_pos hid.symm, hid, hok.absent payment.id hnew]
        exact narrated_of_fresh hfresh invocation request
      · rename_i hid
        rw [if_neg (Ne.symm hid)]
        exact h paymentId q hq
  | @updated payment update hold hfilter hpermitted =>
      rw [row_updated hold] at hq
      rw [commits_record_some, update.id_apply]
      split at hq
      · rename_i hid
        obtain rfl := Option.some.inj hq
        rw [if_pos hid.symm, hid]
        obtain ⟨haggregate, hledger⟩ := hok.payment payment.id payment hold
        refine narrated_of_permitted haggregate hledger (h payment.id payment hold)
          hpermitted hfilter fun hholds hpush => ?_
        refine htime _ rfl ?_ payment hold hholds
        simpa using hpush
      · rename_i hid
        rw [if_neg (Ne.symm hid)]
        exact h paymentId q hq

theorem pushed_of_changed {choice : Choice} {op : Op} {commit : Commit}
    (h : Changed invocation request store choice op store')
    (hhistory : store'.history = store.history ++ [commit]) :
    commit.write.pushed = (pushedBy op).map PendingMessage.stored := by
  cases h with
  | kept => simp at hhistory
  | @created payment hop hnew =>
      rw [create, hnew, if_neg Bool.false_ne_true] at hhistory
      obtain rfl := List.singleton_inj.mp (List.append_cancel_left hhistory)
      rw [hop]
      rfl
  | @updated payment update hupdate _ _ =>
      obtain rfl := List.singleton_inj.mp (List.append_cancel_left hhistory)
      rw [← (pendingMessages_of_update hupdate payment).2]

theorem inOrder_of_narrated (h : AllNarrated store) : InOrder store := by
  intro paymentId payment hrow
  have hnarrated := h paymentId payment hrow
  rw [hnarrated.outbox]
  cases hnarrated.told with
  | all htold _ =>
      rw [htold]
      exact List.sublist_cons_self _ _
  | owed htold _ _ =>
      rw [htold]
      exact (List.sublist_cons_self _ _).trans (List.sublist_cons_self _ _)

end Stores

section Conduct

/-- Writes were added that all meet `mine`, and no payment was removed. -/
structure Extends (mine : Commit → Prop) (σ τ : Store) : Prop where
  history : ∃ added, τ.history = σ.history ++ added ∧ ∀ commit ∈ added, mine commit
  present : ∀ paymentId, (σ.payments.row paymentId).isSome →
    (τ.payments.row paymentId).isSome

theorem Extends.refl (mine : Commit → Prop) (σ : Store) : Extends mine σ σ where
  history := appended_refl mine σ.history
  present := fun _ h => h

theorem Extends.trans {mine : Commit → Prop} {σ τ υ : Store}
    (hστ : Extends mine σ τ) (hτυ : Extends mine τ υ) : Extends mine σ υ where
  history := appended_trans hστ.history hτυ.history
  present := fun paymentId h => hτυ.present paymentId (hστ.present paymentId h)

theorem Extends.mono {mine mine' : Commit → Prop} {σ τ : Store}
    (h : Extends mine σ τ) (hmine : ∀ commit, mine commit → mine' commit) :
    Extends mine' σ τ where
  history := by
    obtain ⟨added, hτ, hadded⟩ := h.history
    exact ⟨added, hτ, fun commit hcommit => hmine commit (hadded commit hcommit)⟩
  present := h.present

/-- The writes of a call, of which only `ReserveForProcessing` reserves. -/
def WrittenBy (i : String) (op : Op) (commit : Commit) : Prop :=
  commit.invocation = i ∧
    (Reserves commit → ∃ paymentId now, op = .reserveForProcessing paymentId now)

theorem reserve_of_update {now : Int} {op : Op} {payment : Payment} {update : Update}
    (h : updateOf now op = some (payment.id, update))
    (hpending : payment.paymentStatus = .pending)
    (hprocessing : (update.apply payment).paymentStatus = .processing) :
    ∃ paymentId now, op = .reserveForProcessing paymentId now := by
  cases op with
  | reserveForProcessing paymentId time => exact ⟨paymentId, time, rfl⟩
  | enqueueMessages _ messages =>
      obtain ⟨_, h⟩ := Option.ite_none_left_eq_some.mp h
      obtain ⟨_, rfl⟩ := Prod.mk.inj (Option.some.inj h)
      change payment.paymentStatus = .processing at hprocessing
      rw [hpending] at hprocessing
      cases hprocessing
  | markDelivery =>
      obtain ⟨_, rfl⟩ := Prod.mk.inj (Option.some.inj h)
      change payment.paymentStatus = .processing at hprocessing
      rw [hpending] at hprocessing
      cases hprocessing
  | markFailed | markExpired | markCompleted =>
      obtain ⟨_, rfl⟩ := Prod.mk.inj (Option.some.inj h)
      cases hprocessing
  | _ => cases h

theorem extends_of_changed {i : String} {request : Request} {σ τ : Store}
    {choice : Choice} {op : Op} (h : Changed i request σ choice op τ) :
    Extends (WrittenBy i op) σ τ where
  history := by
    cases h with
    | kept => exact ⟨[], by simp, by simp⟩
    | created _ hnew =>
        rw [create, hnew, if_neg Bool.false_ne_true]
        refine ⟨_, rfl, ?_⟩
        simp [WrittenBy, Reserves]
    | updated hupdate _ _ =>
        refine ⟨_, rfl, ?_⟩
        simp only [Option.map_some, Option.toList_some, List.mem_singleton, forall_eq]
        refine ⟨rfl, fun hreserves => ?_⟩
        exact reserve_of_update hupdate (Option.some.inj hreserves.1) hreserves.2
  present := by
    intro paymentId hsome
    obtain ⟨p, hp⟩ := Option.isSome_iff_exists.mp hsome
    obtain ⟨q, hq, _⟩ := row_of_changed h hp
    simp [hq]

/-- A repository that never fails. -/
def reliable (choice : Choice) : Choice := { choice with failure := none }

/-- A call of a repository that does not fail. -/
def reliableAct (invocation : String) (request : Request) (store : Store) (op : Op)
    (choice : Choice) : Reply op × Store :=
  act invocation request store op (reliable choice)

/-- Each invocation adds commits of its own, and the others add theirs. -/
def rules : Pool.Rules reliableAct where
  inv := fun _ => True
  rely := fun i => Extends fun commit => commit.invocation ≠ i
  guar := fun i _ => Extends fun commit => commit.invocation = i
  ready := Unused
  rely_refl := fun _ => Extends.refl _
  rely_trans := fun _ _ _ _ => Extends.trans
  guar_refl := fun _ _ => Extends.refl _
  inv_of_guar := fun _ _ _ _ _ _ => trivial
  rely_of_guar := fun _ _ _ _ _ hne _ h => h.mono fun _ hcommit hi =>
    hne (hi.symm.trans hcommit)
  ready_of_rely := by
    intro i σ τ hunused hextends
    obtain ⟨added, hhistory, hadded⟩ := hextends.history
    intro commit hcommit
    rw [hhistory] at hcommit
    rcases List.mem_append.mp hcommit with hold | hnew
    · exact hunused commit hold
    · exact hadded commit hnew

/-- What the invocation reserved, if anything, is the payment. -/
def ReservedOnly (i paymentId : String) (σ : Store) : Prop :=
  ∀ commit ∈ σ.history, commit.invocation = i → Reserves commit →
    commit.write.after.id = paymentId

/-- What the invocation reserved was announced. -/
def Spoken (i : String) (σ : Store) : Prop :=
  ∀ commit ∈ σ.history, commit.invocation = i → Reserves commit →
    ∃ delivery,
      (.processing, delivery) ∈ announced (enqueued σ commit.write.after.id)

section Spoken

variable {i paymentId : String} {σ τ : Store}

theorem enqueued_of_extends {mine : Commit → Prop} (h : Extends mine σ τ)
    (paymentId : String) :
    ∃ added, enqueued τ paymentId = enqueued σ paymentId ++ added := by
  obtain ⟨added, hhistory, _⟩ := h.history
  simp only [enqueued, commits, hhistory, List.filter_append, List.flatMap_append]
  exact ⟨_, rfl⟩

theorem Spoken.mono {mine : Commit → Prop} (h : Spoken i σ) (hτ : Extends mine σ τ)
    (hmine : ∀ commit, mine commit → commit.invocation = i → ¬Reserves commit) :
    Spoken i τ := by
  obtain ⟨added, hhistory, hadded⟩ := hτ.history
  intro commit hcommit hi hreserves
  obtain ⟨messages, hmessages⟩ := enqueued_of_extends hτ commit.write.after.id
  rw [hhistory] at hcommit
  rcases List.mem_append.mp hcommit with hold | hnew
  · obtain ⟨delivery, hdelivery⟩ := h commit hold hi hreserves
    rw [hmessages, announced_append]
    exact ⟨delivery, List.mem_append_left _ hdelivery⟩
  · exact absurd hreserves (hmine commit (hadded commit hnew) hi)

theorem ReservedOnly.mono {mine : Commit → Prop} (h : ReservedOnly i paymentId σ)
    (hτ : Extends mine σ τ)
    (hmine : ∀ commit, mine commit → commit.invocation = i → ¬Reserves commit) :
    ReservedOnly i paymentId τ := by
  obtain ⟨added, hhistory, hadded⟩ := hτ.history
  intro commit hcommit hi hreserves
  rw [hhistory] at hcommit
  rcases List.mem_append.mp hcommit with hold | hnew
  · exact h commit hold hi hreserves
  · exact absurd hreserves (hmine commit (hadded commit hnew) hi)

theorem spoken_of_unused (h : Unused i σ) : Spoken i σ :=
  fun commit hcommit hi => absurd hi (h commit hcommit)

end Spoken

variable {s : Service} {i : String} {request : Request} {σ : Store} {α : Type}

/-- Safety of a program that has announced what it reserved when it ends. -/
abbrev Speaks (i : String) (request : Request) (p : Program α) (σ : Store) : Prop :=
  p.Safe (rules.contract i request) (fun _ => Spoken i) σ

theorem extends_act (op : Op) (choice : Choice) :
    Extends (WrittenBy i op) σ (reliableAct i request σ op choice).2 :=
  extends_of_changed (changed_act i request σ op (reliable choice))

theorem spoken_of_rely {τ : Store} (h : Spoken i σ)
    (hτ : Extends (fun commit => commit.invocation ≠ i) σ τ) : Spoken i τ :=
  h.mono hτ fun _ hne hi => absurd hi hne

theorem speaks_of_calls {ok : Op → Prop} {p : Program α} (hp : p.Calls ok)
    (hok : ∀ op, ok op → ∀ paymentId now, op ≠ .reserveForProcessing paymentId now)
    (hs : Spoken i σ) : Speaks i request p σ := by
  refine hp.safe_of_stable hs (fun _ _ h hrely => spoken_of_rely h hrely) ?_
    fun _ _ h => h
  intro op hop τ hτ choice
  have hextends : Extends (WrittenBy i op) τ (reliableAct i request τ op choice).2 :=
    extends_act op choice
  refine ⟨hextends.mono fun _ h => h.1, hτ.mono hextends fun commit hwritten _ hreserves => ?_⟩
  obtain ⟨paymentId, now, heq⟩ := hwritten.2 hreserves
  exact hok op hop paymentId now heq

theorem not_reserve_of_late (op : Op) (h : lateCall op) (paymentId : String) (now : Int) :
    op ≠ .reserveForProcessing paymentId now := by
  rintro rfl
  exact h

theorem act_reserve (i : String) (request : Request) (σ : Store) (paymentId : String)
    (now : Int) (choice : Choice) :
    reliableAct i request σ (.reserveForProcessing paymentId now) choice =
        (.ok none, σ) ∨
      ∃ payment : Payment, σ.payments.row payment.id = some payment ∧
        payment.id = paymentId ∧
        reliableAct i request σ (.reserveForProcessing paymentId now) choice =
          (.ok (some ((reserveUpdate now).apply payment)), σ.record i request
            (some
              { before := some payment
                after := (reserveUpdate now).apply payment
                pushed := [] },
              σ.payments.modify payment.id (reserveUpdate now).apply
                (reserveUpdate now).id_apply)) := by
  simp only [reliableAct, act, writeCall, reliable]
  rcases findOneAndUpdate_cases σ.payments paymentId (reserveUpdate now) with
    hnone | ⟨payment, hrow, rfl, hfilter⟩
  · rw [hnone, record_none]
    exact .inl rfl
  · rw [findOneAndUpdate_of_filter hrow hfilter]
    exact .inr ⟨payment, hrow, rfl, rfl⟩

theorem act_enqueue (i : String) (request : Request) {paymentId : String}
    (message : PendingMessage) (choice : Choice)
    (hsome : (σ.payments.row paymentId).isSome) :
    (reliableAct i request σ (.enqueueMessages paymentId [message]) choice).1 =
        .ok () ∧
      PendingMessage.stored message ∈ enqueued
        (reliableAct i request σ (.enqueueMessages paymentId [message]) choice).2
        paymentId := by
  obtain ⟨payment, hrow⟩ := Option.isSome_iff_exists.mp hsome
  obtain rfl := σ.payments.key_row paymentId payment hrow
  simp only [reliableAct, act, writeCall, reliable, List.cons_ne_nil, if_false]
  refine ⟨trivial, ?_⟩
  rw [findOneAndUpdate_of_filter hrow rfl, enqueued, commits_record_some,
    if_pos ((enqueueUpdate [message] choice.now).id_apply payment)]
  simp [enqueueUpdate]

theorem reservedOnly_of_unused (hunused : Unused i σ) {w : Write}
    {payments : Collection} :
    ReservedOnly i w.after.id (σ.record i request (some w, payments)) := by
  intro commit hcommit hi _
  rcases List.mem_append.mp hcommit with hold | hnew
  · exact absurd hi (hunused commit hold)
  · obtain rfl := List.mem_singleton.mp hnew
    rfl

theorem announced_of_mem {messages : List PendingMessage} {message : PendingMessage}
    (hmem : PendingMessage.stored message ∈ messages) {pair : Pair}
    (h : announcedPair message = some pair) : pair ∈ announced messages :=
  List.mem_filterMap.mpr ⟨PendingMessage.stored message, hmem, h⟩

theorem guar_act (i : String) (request : Request) (σ : Store) (op : Op)
    (choice : Choice) : Extends (fun commit => commit.invocation = i) σ
      (reliableAct i request σ op choice).2 :=
  (extends_act op choice).mono fun _ h => h.1

theorem speaks_reserve {paymentId : String} {now : Int}
    {f : Except String (Option Payment) → Program α} (hunused : Unused i σ)
    (hnone : ∀ τ, Unused i τ → Speaks i request (f (.ok none)) τ)
    (h : ∀ copy τ, ReservedOnly i copy.id τ → (τ.payments.row copy.id).isSome →
      Speaks i request (f (.ok (some copy))) τ) :
    Speaks i request (call (.reserveForProcessing paymentId now) >>= f) σ := by
  refine safe_perform_bind fun τ hτ _ choice => ?_
  have hguar := guar_act i request τ (.reserveForProcessing paymentId now) choice
  refine ⟨hguar, ?_⟩
  have hunusedτ : Unused i τ := rules.ready_of_rely i σ τ hunused hτ
  change Speaks i request
    (f (reliableAct i request τ (.reserveForProcessing paymentId now) choice).1)
    (reliableAct i request τ (.reserveForProcessing paymentId now) choice).2
  rcases act_reserve i request τ paymentId now choice with
    hact | ⟨payment, hrow, rfl, hact⟩
  · rw [hact]
    exact hnone τ hunusedτ
  · rw [hact] at hguar ⊢
    refine h _ _ (reservedOnly_of_unused hunusedτ) (hguar.present payment.id ?_)
    simp [hrow]

theorem speaks_enqueue {paymentId : String} {message : PendingMessage}
    {delivery : DeliveryStatus} {f : Except String Unit → Program α}
    (hreserved : ReservedOnly i paymentId σ)
    (hsome : (σ.payments.row paymentId).isSome)
    (hannounces : announcedPair message = some (.processing, delivery))
    (h : ∀ τ, Spoken i τ → Speaks i request (f (.ok ())) τ) :
    Speaks i request (call (.enqueueMessages paymentId [message]) >>= f) σ := by
  refine safe_perform_bind fun τ hτ _ choice => ?_
  refine ⟨guar_act i request τ (.enqueueMessages paymentId [message]) choice, ?_⟩
  change Speaks i request
    (f (reliableAct i request τ (.enqueueMessages paymentId [message]) choice).1)
    (reliableAct i request τ (.enqueueMessages paymentId [message]) choice).2
  obtain ⟨hreply, hmem⟩ :=
    act_enqueue i request message choice (hτ.present paymentId hsome)
  rw [hreply]
  have honly : ReservedOnly i paymentId τ :=
    hreserved.mono hτ fun _ hne hi => absurd hi hne
  refine h _ fun commit hcommit hi hreserves => ⟨delivery, ?_⟩
  have hid : commit.write.after.id = paymentId := by
    refine honly.mono (extends_act _ choice) ?_ commit hcommit hi hreserves
    intro other hwritten _ hreservesOther
    obtain ⟨_, _, hop⟩ := hwritten.2 hreservesOther
    cases hop
  rw [hid]
  exact announced_of_mem hmem hannounces

theorem speaks_handleProcessRequested (hunused : Unused i σ)
    (envelope : Envelope PaymentProcessRequestedPayload) :
    Speaks i request (handleProcessRequested s envelope) σ := by
  rw [handleProcessRequested_eq]
  refine safe_perform_bind fun τ hτ _ choice => ⟨.refl _ τ, ?_⟩
  refine speaks_reserve (rules.ready_of_rely i σ τ hunused hτ) (fun υ hυ => ?_) ?_
  · exact speaks_of_calls (calls_processMissed envelope _) not_reserve_of_late
      (spoken_of_unused hυ)
  · intro copy υ honly hsome
    refine Quiet.safe_bind (quiet_statusMessages (fun _ _ => rfl) (fun _ _ => rfl) copy
      .processing copy.deliveryStatus _ _) trivial ?_
    rintro _ ξ hξ _ ⟨message, rfl, hannounces⟩
    refine speaks_enqueue (honly.mono hξ fun _ hne hi => absurd hi hne)
      (hξ.present copy.id hsome) (announcedPair_of_announces hannounces) fun ρ hρ => ?_
    have hcalls := (calls_retryFrom (fun _ => trivial)
      (fun _ _ => trivial) s.config.processingAttempts s.config.processingDelay
      s.config.processingBackoff copy 1 s.config.processingAttempts.toNat).bind
        fun result => calls_concludeProcessing (s := s) envelope copy result
    exact speaks_of_calls hcalls not_reserve_of_late hρ

theorem speaks_program (hunused : Unused i σ) :
    Speaks i request (program s request) σ := by
  have hother (hrequest : ∀ paymentId now,
      ¬mayCall request (.reserveForProcessing paymentId now)) :
      Speaks i request (program s request) σ := by
    refine speaks_of_calls (calls_program s request) ?_ (spoken_of_unused hunused)
    rintro op hop paymentId now rfl
    exact hrequest paymentId now hop
  cases request with
  | processRequested envelope =>
      refine (speaks_handleProcessRequested hunused envelope).bind trivial
        fun _ τ _ hspoken υ hυ _ => spoken_of_rely hspoken hυ
  | _ => exact hother fun _ _ => id

end Conduct

section Runs

variable {s : Service}

/-- No repository call fails and no instance stops. -/
def Reliable : Event → Prop
  | .act _ choice => choice.failure = none
  | .stop _ => False
  | .start _ _ => True

/-- Whoever reserved a payment finds it `PROCESSING` when it first adds messages
to the outbox. -/
def InTime (world : World) : Event → Prop
  | .act i _ => ∀ request op next paymentId payment,
      world.invocations i =
        some { request := request, rest := some (.call op next) } →
      Holds world.shared i paymentId → pushedBy op ≠ [] →
      world.shared.payments.row paymentId = some payment →
      payment.paymentStatus = .processing
  | _ => True

/-- No handler is running. -/
def Idle (world : World) : Prop :=
  ∀ i request op next, world.invocations i ≠
    some { request := request, rest := some (.call op next) }

theorem narrated_of_step {world next : World} {event : Event}
    (hsound : Lifecycle.Sound world) (h : AllNarrated world.shared)
    (htime : InTime world event) (hstep : step s world event = some next) :
    AllNarrated next.shared := by
  cases event with
  | act i choice =>
      obtain ⟨request, op, rest, hrunning, hnext⟩ := Pool.step_act hstep
      have heffect : Effect i request world.shared next.shared := by
        rw [hnext]
        exact hsound.guar hrunning choice
      have hchanged := changed_act i request world.shared op choice
      rw [← hnext] at hchanged
      refine narrated_of_effect hsound.inv h heffect ?_
      intro commit hhistory hpushed payment hrow hholds
      refine htime request op rest payment.id payment hrunning hholds ?_ hrow
      rintro hnone
      rw [pushed_of_changed hchanged hhistory, hnone] at hpushed
      exact hpushed rfl
  | start | stop =>
      rw [Pool.shared_of_step (by simp) hstep]
      exact h

theorem step_reliable {world : World} {event : Event} (h : Reliable event) :
    Pool.step (program s) reliableAct world event = step s world event := by
  cases event with
  | act i choice =>
      have hact : ∀ request σ op, reliableAct i request σ op choice =
          act i request σ op choice := by
        intro request σ op
        change choice.failure = none at h
        rw [reliableAct, reliable, ← h]
      simp only [Pool.step, hact]
  | _ => rfl

theorem spoken_of_idle {world : World}
    (h : Pool.Orderly rules (fun i _ _ => Spoken i) world) (halive : world.Alive)
    (hidle : Idle world) (i : String) : Spoken i world.shared := by
  have hfollows := h.follows i
  cases hinvocation : world.invocations i with
  | none =>
      rw [hinvocation] at hfollows
      exact spoken_of_unused hfollows
  | some invocation =>
      obtain ⟨request, rest⟩ := invocation
      cases rest with
      | none => cases halive i _ hinvocation
      | some p =>
          cases p with
          | done answer =>
              rw [hinvocation] at hfollows
              exact hfollows world.shared (.refl _ _) trivial
          | call op next => exact absurd hinvocation (hidle i request op next)

theorem upToDate_of_spoken {store : Store} (hok : StoreOk store)
    (h : AllNarrated store) (hspoken : ∀ i, Spoken i store) : UpToDate store := by
  intro paymentId payment hrow
  obtain ⟨hcurrent, houtbox, htold⟩ := h paymentId payment hrow
  have hledger := (hok.payment paymentId payment hrow).2
  have hpath : path (commits store paymentId) =
      initial :: announced (messagesOf (commits store paymentId)) := by
    cases htold with
    | all hpath _ => exact hpath
    | owed _ hnew hreserved =>
        obtain ⟨commit, hcommit, hreserves⟩ := hreserved
        obtain ⟨hmem, hid⟩ := List.mem_filter.mp hcommit
        obtain ⟨delivery, hdelivery⟩ := hspoken commit.invocation commit hmem rfl hreserves
        rw [of_decide_eq_true hid] at hdelivery
        exact absurd rfl (hnew _ hdelivery)
  rw [hpath] at hcurrent
  rw [houtbox]
  cases hannounced : announced (messagesOf (commits store paymentId)) with
  | nil =>
      rw [hannounced] at hcurrent
      have hinitial : pairOf payment = initial := (Option.some.inj hcurrent).symm
      simp [hinitial]
  | cons first rest =>
      rw [hannounced, List.getLast?_cons_cons] at hcurrent
      rw [hcurrent, if_neg]
      intro hinitial
      have hpending : payment.paymentStatus = .pending := congrArg Prod.fst hinitial
      have hids : statusIds (messagesOf (commits store paymentId)) = [] := by
        refine List.eq_nil_iff_forall_not_mem.mpr fun id hid => ?_
        obtain ⟨pair, hmem, _⟩ := hledger.known id hid
        rw [hpending] at hmem
        cases hmem
      rw [announced_of_statusIds hids] at hannounced
      cases hannounced

theorem narrated_of_run {world : World} {trace : List (World × Event)}
    (hrun : Run s trace world) (htime : ∀ p ∈ trace, InTime p.1 p.2) :
    AllNarrated world.shared := by
  induction hrun with
  | nil => exact fun _ _ hrow => nomatch hrow
  | snoc hbefore hstep ih =>
      have hsound := Lifecycle.sound_of_reachable hbefore.reachable
      have hnarrated := ih fun p hp => htime p (List.mem_append_left _ hp)
      have hlast := htime _ (List.mem_append_right _ (List.mem_singleton_self _))
      exact narrated_of_step hsound hnarrated hlast hstep

theorem spoken_of_run {world : World} {trace : List (World × Event)}
    (hrun : Run s trace world) (hreliable : ∀ p ∈ trace, Reliable p.2)
    (hidle : Idle world) (i : String) : Spoken i world.shared := by
  have hunused : ∀ j, rules.ready j Store.empty := by simp [rules, Unused, Store.empty]
  have hrun' : StepSystem.Run (Pool.step (program s) reliableAct) World.init trace
      world := hrun.congr fun p hp => step_reliable (hreliable p hp)
  have horderly : Pool.Orderly rules (fun i _ _ => Spoken i) world :=
    Pool.orderly_of_reachable (fun _ _ _ _ hunused => speaks_program hunused)
      trivial hunused hrun'.reachable
  have halive : world.Alive := by
    refine hrun.invariant (I := Pool.Alive) (fun _ event => Reliable event)
      (Pool.alive_init _) (fun world event next h hreliable hstep => ?_) hreliable
    exact h.step (by rintro i rfl; exact hreliable) hstep
  exact spoken_of_idle horderly halive hidle i

/-- In every run without failures in which `PROCESSING` is announced in time, every
state has its announcements in order, and with no handler at work the last one is
that of the current pair. -/
theorem announcements_follow_status (s : Service) {trace : List (World × Event)}
    {world : World} (hrun : Run s trace world)
    (hreliable : ∀ p ∈ trace, Reliable p.2) (htime : ∀ p ∈ trace, InTime p.1 p.2) :
    ∀ earlier ∈ StepSystem.states trace world,
      InOrder earlier.shared ∧ (Idle earlier → UpToDate earlier.shared) := by
  intro earlier hearlier
  obtain ⟨before, after, rfl, hbefore, _⟩ := hrun.split_states hearlier
  have hnarrated := narrated_of_run hbefore
    fun p hp => htime p (List.mem_append_left _ hp)
  refine ⟨inOrder_of_narrated hnarrated, fun hidle => ?_⟩
  have hok := Lifecycle.storeOk_of_reachable hbefore.reachable
  refine upToDate_of_spoken hok hnarrated (spoken_of_run hbefore ?_ hidle)
  exact fun p hp => hreliable p (List.mem_append_left _ hp)

end Runs

section Samples

def sampleProcess : Request :=
  .processRequested (newEnvelopeWithMetadata "payment.process.requested" "ppd-1"
    "c-1" "" "" "payment-service"
    { paymentId := "payment-1"
      paymentReference := "ref-1" })

def sampleActs (i : String) (count : Nat) : List Event :=
  List.replicate count (.act i sampleChoice)

/-- The payment is created, reserved by `HandleProcessRequested` and completed by
its callback before the reservation is announced. -/
def sampleOvertaken : List Event :=
  .start "i-1" sampleCreate :: sampleActs "i-1" 11 ++
    .start "i-2" sampleProcess :: sampleActs "i-2" 2 ++
    .start "i-3" sampleCallback :: sampleActs "i-3" 8 ++ sampleActs "i-2" 9

theorem idle_of_replay {s : Service} {events : List Event} {world : World}
    (hevents : StepSystem.replay (step s) World.init events = some world)
    {ids : List String} (hids : ∀ event ∈ events, event.invocation ∈ ids)
    (hdone : ∀ i ∈ ids, ∃ request answer, world.invocations i =
      some { request := request, rest := some (.done answer) }) : Idle world := by
  intro i request op next hrunning
  by_cases hi : i ∈ ids
  · obtain ⟨request', answer, hended⟩ := hdone i hi
    rw [hended] at hrunning
    cases hrunning
  · have huntouched : world.invocations i = World.init.invocations i := by
      refine Pool.untouched_of_replay hevents ?_
      rintro event hevent rfl
      exact hi (hids event hevent)
    rw [huntouched] at hrunning
    cases hrunning

/-- The announcement of `PROCESSING` comes after that of `COMPLETED`. -/
theorem processing_announced_after_completion :
    ∃ (trace : List (World × Event)) (world : World),
      Run sampleService trace world ∧ (∀ p ∈ trace, Reliable p.2) ∧
      ¬InOrder world.shared ∧ Idle world ∧ ¬UpToDate world.shared := by
  obtain ⟨world, payment, hworld, hrow, hpair, hannounced, hpath, hdone⟩ :
      ∃ world payment,
        StepSystem.replay (step sampleService) World.init sampleOvertaken =
          some world ∧
        world.shared.payments.row "payment-1" = some payment ∧
        pairOf payment = (.completed, .pending) ∧
        announced payment.pendingMessages =
          [(.completed, .pending), (.processing, .pending)] ∧
        path (commits world.shared "payment-1") =
          [(.pending, .pending), (.processing, .pending), (.completed, .pending)] ∧
        ∀ i ∈ ["i-1", "i-2", "i-3"], ∃ request answer, world.invocations i =
          some { request := request, rest := some (.done answer) } := by
    refine ⟨_, _, rfl, rfl, rfl, rfl, rfl, ?_⟩
    simp only [List.mem_cons, List.not_mem_nil, or_false, forall_eq_or_imp, forall_eq]
    exact ⟨⟨_, _, rfl⟩, ⟨_, _, rfl⟩, ⟨_, _, rfl⟩⟩
  have hids : ∀ event ∈ sampleOvertaken, event.invocation ∈ ["i-1", "i-2", "i-3"] := by
    simp [sampleOvertaken, sampleActs, Pool.Event.invocation]
  have hreliable : ∀ event ∈ sampleOvertaken, Reliable event := by
    simp [sampleOvertaken, sampleActs, Reliable, sampleChoice]
  refine ⟨_, world, StepSystem.run_of_replay hworld, fun p hp => ?_, fun horder => ?_,
    idle_of_replay hworld hids hdone, fun hlast => ?_⟩
  · exact hreliable p.2 (StepSystem.event_mem_of_mem_traceOf hp)
  · have hsublist := horder "payment-1" payment hrow
    rw [hannounced, hpath] at hsublist
    revert hsublist
    decide
  · have hfinal := hlast "payment-1" payment hrow
    rw [hannounced, hpair] at hfinal
    revert hfinal
    decide

/-- The same with the callback after `HandleProcessRequested`. -/
def sampleInTurn : List Event :=
  .start "i-1" sampleCreate :: sampleActs "i-1" 11 ++
    .start "i-2" sampleProcess :: sampleActs "i-2" 11 ++
    .start "i-3" sampleCallback :: sampleActs "i-3" 8

instance (commit : Commit) : Decidable (Reserves commit) :=
  inferInstanceAs (Decidable (_ ∧ _))

/-- Each reservation was followed by messages or is still `PROCESSING`. -/
def timely (store : Store) : Bool :=
  store.history.all fun commit =>
    !decide (Reserves commit) ||
      (store.history.any fun other =>
        decide (other.invocation = commit.invocation ∧ other.write.pushed ≠ [])) ||
      decide ((store.payments.row commit.write.after.id).map Payment.paymentStatus =
        some .processing)

theorem inTime_of_timely {world : World} (h : timely world.shared = true)
    (event : Event) : InTime world event := by
  cases event with
  | act i choice =>
      intro request op next paymentId payment _ hholds _ hrow
      obtain ⟨commit, hcommit, hi, hreserves⟩ := hholds.reserved
      obtain ⟨hmem, hid⟩ := List.mem_filter.mp hcommit
      have hcheck := List.all_eq_true.mp h commit hmem
      simp only [hreserves, decide_true, Bool.not_true, Bool.false_or,
        Bool.or_eq_true, List.any_eq_true, decide_eq_true_eq] at hcheck
      rcases hcheck with ⟨other, hother, hsame, hpushed⟩ | hprocessing
      · exact absurd (hholds.silent other hother (hsame.trans hi)) hpushed
      · rw [of_decide_eq_true hid, hrow] at hprocessing
        exact Option.some.inj hprocessing
  | _ => exact trivial

theorem announcements_follow_status_sample : ∃ (world : World) (payment : Payment),
    Reachable sampleService world ∧
    world.shared.payments.row "payment-1" = some payment ∧
    pairOf payment = (.completed, .pending) ∧
    InOrder world.shared ∧ UpToDate world.shared := by
  obtain ⟨world, payment, hworld, htimely, hrow, hpair, hdone⟩ :
      ∃ world payment,
        StepSystem.replay (step sampleService) World.init sampleInTurn = some world ∧
        ((StepSystem.traceOf (step sampleService) World.init sampleInTurn).all
          fun p => timely p.1.shared) = true ∧
        world.shared.payments.row "payment-1" = some payment ∧
        pairOf payment = (.completed, .pending) ∧
        ∀ i ∈ ["i-1", "i-2", "i-3"], ∃ request answer, world.invocations i =
          some { request := request, rest := some (.done answer) } := by
    refine ⟨_, _, rfl, rfl, rfl, rfl, ?_⟩
    simp only [List.mem_cons, List.not_mem_nil, or_false, forall_eq_or_imp, forall_eq]
    exact ⟨⟨_, _, rfl⟩, ⟨_, _, rfl⟩, ⟨_, _, rfl⟩⟩
  have hids : ∀ event ∈ sampleInTurn,
      event.invocation ∈ ["i-1", "i-2", "i-3"] := by
    simp [sampleInTurn, sampleActs, Pool.Event.invocation]
  have hreliable : ∀ event ∈ sampleInTurn, Reliable event := by
    simp [sampleInTurn, sampleActs, Reliable, sampleChoice]
  have hrun := StepSystem.run_of_replay hworld
  obtain ⟨horder, hlast⟩ := announcements_follow_status sampleService hrun
    (fun p hp => hreliable p.2 (StepSystem.event_mem_of_mem_traceOf hp))
    (fun p hp => inTime_of_timely (List.all_eq_true.mp htimely p hp) p.2) world
    (by simp [StepSystem.states])
  exact ⟨world, payment, hrun.reachable, hrow, hpair, horder,
    hlast (idle_of_replay hworld hids hdone)⟩

end Samples

end Modularis.Payments.Announcements
