import Modularis.Foundation.Drain
import Modularis.Payments.Batches

namespace Modularis.Payments.Drain

open Modularis.Foundation
open Modularis.Foundation.Drain
open Modularis.Foundation.Program
open Modularis.Shared.Durations
open Modularis.Payments.Models
open Modularis.Payments.Repository
open Modularis.Payments.Operations (Store)
open Modularis.Payments.Handlers
open Modularis.Payments.Outbox
open Modularis.Payments.Claims
open Modularis.Payments.Publishing (row_of_target)
open Modularis.Payments.Batches (apart samplePayment sampleMessage sampleChoices
  eq_of_token_eq token_ne_empty)
open Modularis.Payments.Lifecycle (sampleService)
open Modularis.Payments.Lossless (leads_claim run_claimFrom_of_none not_claimable_claimed)

/-- A pending message and its payment. -/
abbrev Entry := String × PendingMessage

/-- The entries of a payment. -/
def entriesOf (payment : Payment) : List Entry :=
  payment.pendingMessages.map fun message => (payment.id, message)

/-- All that is pending. -/
def entries (store : Store) : List Entry := store.payments.rows.flatMap entriesOf

/-- What goes out of a message. -/
structure Parcel where
  exchange : String
  routingKey : String
  body : Body
deriving DecidableEq, Repr

/-- What goes out of a pending message. -/
def parcel (message : PendingMessage) : Parcel where
  exchange := message.exchange
  routingKey := message.routingKey
  body := message.body

/-- What still has to go out. -/
def pending (state : State) : List Parcel :=
  (entries state.store).map fun entry => parcel entry.2

/-- What the broker has accepted, oldest first. -/
def accepted (state : State) : List Parcel :=
  (state.log.publications.filter Publication.accepted).map fun publication =>
    { exchange := publication.exchange
      routingKey := publication.routingKey
      body := publication.body }

section Updates

variable {state : State} {before claimUntil : Int}

theorem entries_modify {payment : Payment}
    (hrow : state.store.payments.row payment.id = some payment) :
    ∃ front back, entries state.store = front ++ entriesOf payment ++ back ∧
      ∀ (f : Payment → Payment) (hf : ∀ payment, (f payment).id = payment.id) (log : Log),
        entries (state.modify payment.id f hf log).store =
          front ++ entriesOf (f payment) ++ back := by
  obtain ⟨front, back, hrows⟩ := List.append_of_mem (Table.mem_rows_of_row hrow)
  have hnodup : (state.store.payments.rows.map Payment.id).Nodup :=
    state.store.payments.map_key_rows ▸ state.store.payments.nodup_keys
  rw [hrows, List.map_append, List.map_cons, List.nodup_middle, List.nodup_cons,
    ← List.map_append] at hnodup
  have hothers : ∀ other ∈ front ++ back, other.id ≠ payment.id :=
    fun other hother hid => hnodup.1 (hid ▸ List.mem_map_of_mem hother)
  refine ⟨front.flatMap entriesOf, back.flatMap entriesOf, ?_, fun f hf log => ?_⟩
  · simp [entries, hrows]
  · have hkept : ∀ payments : List Payment, payments ⊆ front ++ back →
        payments.map (fun other => if other.id = payment.id then f other else other) =
          payments := by
      intro payments hpayments
      refine (List.map_congr_left fun other hother => ?_).trans (List.map_id _)
      exact if_neg (hothers other (hpayments hother))
    rw [entries, State.modify, Table.rows_modify, hrows, List.map_append, List.map_cons,
      if_pos rfl, hkept front (List.subset_append_left _ _),
      hkept back (List.subset_append_right _ _)]
    simp

/-- The entry that an acknowledgement is about. -/
def acknowledges (paymentId messageId claimToken : String) (entry : Entry) : Bool :=
  decide (entry.1 = paymentId) && matchesClaim messageId claimToken entry.2

theorem entries_acknowledge (state : State) (paymentId messageId claimToken : String)
    (now : Int) (log : Log) :
    entries (state.modify paymentId (acknowledgePayment messageId claimToken now)
        (id_acknowledgePayment messageId claimToken now) log).store =
      (entries state.store).filter fun entry =>
        !acknowledges paymentId messageId claimToken entry := by
  rw [entries, State.modify, Table.rows_modify, List.flatMap_map, entries,
    List.filter_flatMap]
  refine List.flatMap_congr fun payment _ => ?_
  split
  · rename_i hid
    simp only [entriesOf, acknowledgePayment, List.filter_map]
    congr 1
    refine List.filter_congr fun message _ => ?_
    simp [acknowledges, hid]
  · rename_i hid
    refine (List.filter_eq_self.mpr fun entry hentry => ?_).symm
    obtain ⟨message, _, rfl⟩ := List.mem_map.mp hentry
    simp [acknowledges, hid]

theorem entries_claim {document : Eligible before}
    (hrow : state.store.payments.row document.payment.id = some document.payment)
    {claimToken : String} (hnew : ∀ entry ∈ entries state.store,
      entry.2.claimToken ≠ claimToken) (claimUntil now : Int) :
    ∃ message others,
      (entries state.store).Perm ((document.payment.id, message) :: others) ∧
      claimable before message = true ∧
      (document.claim claimToken claimUntil now).publish =
        { paymentId := document.payment.id
          message := claimMessage claimToken claimUntil message } ∧
      ∀ log, (entries (state.modify document.payment.id
        (claimPayment claimToken before claimUntil now)
        (id_claimPayment claimToken before claimUntil now) log).store).Perm
          ((document.payment.id, claimMessage claimToken claimUntil message) :: others) := by
  obtain ⟨front, back, hentries, hmodify⟩ := entries_modify hrow
  obtain ⟨ahead, message, behind, hbox, hclaimable, _, hupdate⟩ :=
    updateFirst_split (claimMessage claimToken claimUntil) document.claimable
  have hself : ∀ other ∈ document.payment.pendingMessages,
      (document.payment.id, other) ∈ entries state.store := by
    intro other hother
    rw [hentries]
    exact List.mem_append_left _ (List.mem_append_right _ (List.mem_map_of_mem hother))
  have hpublish := publish_claim document now hupdate fun other hother =>
    hnew _ (hself other (by simp [hbox, hother]))
  refine ⟨message, front ++ (ahead ++ behind).map (fun other => (document.payment.id, other)) ++
    back, ?_, hclaimable, hpublish, fun log => ?_⟩
  · rw [hentries, entriesOf, hbox]
    simp only [List.map_append, List.map_cons, List.append_assoc, List.cons_append]
    rw [← List.append_assoc, ← List.append_assoc]
    refine List.perm_middle.trans (.cons _ ?_)
    simp
  · rw [hmodify, entriesOf, claimPayment, hupdate]
    simp only [List.map_append, List.map_cons, List.append_assoc, List.cons_append]
    rw [← List.append_assoc, ← List.append_assoc]
    refine List.perm_middle.trans (.cons _ ?_)
    simp

end Updates

section Claim

variable {state : State} {before claimUntil : Int}

/-- The tokens that the loop draws are those of no message, nor of one another. -/
structure Fresh (store : Store) (choices : Nat → PublishChoice) : Prop where
  distinct : ∀ m n, (choices (2 * m)).newId = (choices (2 * n)).newId → m = n
  new : ∀ n, ∀ entry ∈ entries store, entry.2.claimToken ≠ (choices (2 * n)).newId

/-- The number of entries that a run would find. -/
def dueCount (before : Int) (store : Store) : Nat :=
  (entries store).countP fun entry => claimable before entry.2

theorem Fresh.claimed {mid : Store} {choices : Nat → PublishChoice}
    (h : Fresh state.store choices) {paymentId : String} {message : PendingMessage}
    {rest : List Entry}
    (hinitial : (entries state.store).Perm ((paymentId, message) :: rest))
    (hmid : (entries mid).Perm
      ((paymentId, claimMessage (choices 0).newId claimUntil message) :: rest)) :
    Fresh mid (fun n => choices (n + 2)) where
  distinct := by
    intro m n hsame
    have hindex := h.distinct (m + 1) (n + 1) hsame
    omega
  new := by
    intro n entry hentry hsame
    rcases List.mem_cons.mp (hmid.mem_iff.mp hentry) with rfl | hold
    · have hindex := h.distinct 0 (n + 1) hsame
      omega
    · exact h.new (n + 1) entry (hinitial.mem_iff.mpr (List.mem_cons_of_mem _ hold)) hsame

/-- The claim of an entry. -/
def Claims (claimUntil : Int) (entry : Entry) (publish : PendingPublish) : Prop :=
  publish.paymentId = entry.1 ∧
    ∃ claimToken, publish.message = claimMessage claimToken claimUntil entry.2

/-- The entry that was claimed. -/
def PendingPublish.entry (publish : PendingPublish) : Entry :=
  (publish.paymentId, publish.message)

/-- The claims are those of `taken`, and the other entries stay. -/
structure Taken (before claimUntil : Int) (limit : Nat) (initial final : Store)
    (choices : Nat → PublishChoice) (taken others : List Entry)
    (publishes : List PendingPublish) : Prop where
  earlier : (entries initial).Perm (taken ++ others)
  later : (entries final).Perm (publishes.map PendingPublish.entry ++ others)
  claims : List.Forall₂ (Claims claimUntil) taken publishes
  due : ∀ entry ∈ taken, claimable before entry.2 = true
  length : publishes.length = min limit (dueCount before initial)
  drawn : ∀ publish ∈ publishes, ∃ n, publish.message.claimToken = (choices (2 * n)).newId

theorem Taken.nil {limit : Nat} {choices : Nat → PublishChoice}
    (h : limit = 0 ∨ dueCount before state.store = 0) :
    Taken before claimUntil limit state.store state.store choices []
      (entries state.store) [] where
  earlier := .refl _
  later := .refl _
  claims := .nil
  due := by simp
  length := by
    rw [List.length_nil]
    omega
  drawn := by simp

theorem due_of_target {document : String}
    (h : target state.store.payments before document = none) :
    dueCount before state.store = 0 := by
  rw [dueCount, List.countP_eq_zero]
  intro entry hentry
  obtain ⟨payment, hpayment, hmem⟩ := List.mem_flatMap.mp hentry
  obtain ⟨message, hmessage, rfl⟩ := List.mem_map.mp hmem
  have hnone := List.findSome?_eq_none_iff.mp (Option.or_eq_none_iff.mp h).2 payment
    hpayment
  intro hclaimable
  have hany : payment.pendingMessages.any (claimable before) = true :=
    List.any_eq_true.mpr ⟨message, hmessage, hclaimable⟩
  simp [eligible?, hany] at hnone

theorem run_claimFrom_taken (hlease : date before < date claimUntil) (run : String)
    (remaining : Nat) {choices : Nat → PublishChoice}
    (hsucceeds : ∀ n, (choices n).failure = none) (hfresh : Fresh state.store choices)
    (result : List PendingPublish) :
    ∃ taken others publishes final,
      (claimFrom before claimUntil result remaining).run (publishAct run ()) choices state =
        (.ok (result ++ publishes), final) ∧
      Taken before claimUntil remaining state.store final.store choices taken others
        publishes := by
  induction remaining generalizing result choices state with
  | zero =>
      exact ⟨[], _, [], state, by rw [List.append_nil]; rfl, .nil (.inl rfl)⟩
  | succ remaining ih =>
      cases htarget : target state.store.payments before (choices 1).document with
      | none =>
          refine ⟨[], _, [], state, ?_, .nil (.inr (due_of_target htarget))⟩
          rw [List.append_nil]
          exact run_claimFrom_of_none run claimUntil result remaining (hsucceeds 1) htarget
      | some document =>
          have hnew : ∀ entry ∈ entries state.store,
              entry.2.claimToken ≠ (choices 0).newId := hfresh.new 0
          obtain ⟨message, rest, hinitial, hclaimable, hpublish, hmodify⟩ :=
            entries_claim (row_of_target htarget) hnew claimUntil (choices 1).now
          obtain ⟨log, hrun⟩ := leads_claim run claimUntil result remaining
            (hsucceeds 1) htarget
          have hmid := hmodify log
          have hlater := hfresh.claimed hinitial hmid
          obtain ⟨taken, others, publishes, final, hrest, htaken⟩ :=
            ih (fun n => hsucceeds (n + 2)) hlater (result ++
              [(document.claim (choices 0).newId claimUntil (choices 1).now).publish])
          -- the claimed copy is not due any more, so it is among the others
          have hcopy := not_claimable_claimed hlease (choices 0).newId message
          have hmem : (document.payment.id,
              claimMessage (choices 0).newId claimUntil message) ∈ others := by
            have hall := (hmid.symm.trans htaken.earlier).mem_iff.mp List.mem_cons_self
            rcases List.mem_append.mp hall with hnow | hlater
            · rw [htaken.due _ hnow] at hcopy
              cases hcopy
            · exact hlater
          obtain ⟨front, back, hsplit⟩ := List.append_of_mem hmem
          have hothers : others.Perm ((document.payment.id,
              claimMessage (choices 0).newId claimUntil message) :: (front ++ back)) := by
            rw [hsplit]
            exact List.perm_middle
          have hrests : rest.Perm (taken ++ (front ++ back)) := by
            have hall := (hmid.symm.trans htaken.earlier).trans (hothers.append_left taken)
            exact (hall.trans List.perm_middle).cons_inv
          refine ⟨(document.payment.id, message) :: taken, front ++ back,
            (document.claim (choices 0).newId claimUntil (choices 1).now).publish ::
              publishes, final, ?_, ?_⟩
          · rw [hrun, hrest, List.append_assoc, List.singleton_append]
          · rw [hpublish]
            refine
              { earlier := hinitial.trans (hrests.cons _)
                later := ?_
                claims := .cons ⟨rfl, _, rfl⟩ htaken.claims
                due := ?_
                length := ?_
                drawn := ?_ }
            · refine (htaken.later.trans (hothers.append_left _)).trans ?_
              exact List.perm_middle
            · exact List.forall_mem_cons.mpr ⟨hclaimable, htaken.due⟩
            · have hcount : dueCount before state.store =
                  dueCount before (state.modify document.payment.id
                    (claimPayment (choices 0).newId before claimUntil (choices 1).now)
                    (id_claimPayment (choices 0).newId before claimUntil (choices 1).now)
                    log).store + 1 := by
                rw [dueCount, dueCount, hinitial.countP_eq, hmid.countP_eq]
                simp [hclaimable, hcopy]
              rw [List.length_cons, htaken.length, hcount]
              omega
            · refine List.forall_mem_cons.mpr ⟨⟨0, rfl⟩, fun publish hmem => ?_⟩
              obtain ⟨n, hn⟩ := htaken.drawn publish hmem
              exact ⟨n + 1, hn⟩

end Claim

section Publish

variable {s : Service} {state : State} {choices : Nat → PublishChoice}

/-- The publication of a claimed message. -/
def publicationOf (run : String) (publish : PendingPublish) : Publication where
  run := run
  exchange := publish.message.exchange
  routingKey := publish.message.routingKey
  body := publish.message.body
  accepted := true

/-- The acknowledgement of a claim removes its entry. -/
def settles (publish : PendingPublish) (entry : Entry) : Bool :=
  acknowledges publish.paymentId publish.message.id publish.message.claimToken entry

theorem run_publishOne (s : Service) (state : State) (run : String) (publish : PendingPublish)
    (publishes : List PendingPublish) (hsucceeds : ∀ n, (choices n).failure = none) :
    ∃ state', (publishAll s (publish :: publishes)).run (publishAct run ()) choices state =
        (publishAll s publishes).run (publishAct run ()) (fun n => choices (n + 2)) state' ∧
      entries state'.store = (entries state.store).filter (fun entry =>
        !settles publish entry) ∧
      state'.log.publications = state.log.publications ++ [publicationOf run publish] := by
  have hpublish : publishAct run () state (.publish publish.message.exchange
      publish.message.routingKey publish.message.body) (choices 0) =
        (.ok (), { state with
          log :=
            { state.log with
              publications := state.log.publications ++ [publicationOf run publish] } }) := by
    simp only [publishAct, hsucceeds 0]
    rfl
  refine ⟨_, (leads_perform_bind hpublish rfl).run.trans
    ((leads_perform_bind rfl rfl).run.trans rfl), ?_, ?_⟩
  · simp only [hsucceeds 1]
    exact entries_acknowledge _ _ _ _ _ _
  · simp only [hsucceeds 1]
    rfl

theorem run_publishAll (run : String) (publishes : List PendingPublish)
    (hsucceeds : ∀ n, (choices n).failure = none) :
    ∃ final, (publishAll s publishes).run (publishAct run ()) choices state = ((), final) ∧
      entries final.store = (entries state.store).filter (fun entry =>
        publishes.all fun publish => !settles publish entry) ∧
      final.log.publications =
        state.log.publications ++ publishes.map (publicationOf run) := by
  induction publishes generalizing state choices with
  | nil => exact ⟨state, rfl, by simp, by simp⟩
  | cons publish publishes ih =>
      obtain ⟨state', hrun, hentries, hpublications⟩ :=
        run_publishOne s state run publish publishes hsucceeds
      obtain ⟨final, hrest, hentries', hpublications'⟩ :=
        @ih state' (fun n => choices (n + 2)) fun n => hsucceeds (n + 2)
      refine ⟨final, hrun.trans hrest, ?_, ?_⟩
      · rw [hentries', hentries, List.filter_filter]
        refine List.filter_congr fun entry _ => ?_
        rw [List.all_cons, Bool.and_comm]
      · rw [hpublications', hpublications, List.map_cons, List.append_assoc,
          List.singleton_append]

theorem filter_taken {before claimUntil : Int} {limit : Nat} {initial final : Store}
    {taken others : List Entry} {publishes : List PendingPublish}
    (h : Taken before claimUntil limit initial final choices taken others publishes)
    (hfresh : Fresh initial choices) :
    ((entries final).filter fun entry =>
      publishes.all fun publish => !settles publish entry).Perm others := by
  have hgone : ((publishes.map PendingPublish.entry).filter fun entry =>
      publishes.all fun publish => !settles publish entry) = [] := by
    rw [List.filter_eq_nil_iff]
    intro entry hentry
    obtain ⟨publish, hpublish, rfl⟩ := List.mem_map.mp hentry
    rw [Bool.not_eq_true, List.all_eq_false]
    exact ⟨publish, hpublish, by simp [settles, acknowledges, matchesClaim,
      PendingPublish.entry]⟩
  have hkept : (others.filter fun entry =>
      publishes.all fun publish => !settles publish entry) = others := by
    rw [List.filter_eq_self]
    intro entry hentry
    rw [List.all_eq_true]
    intro publish hpublish
    obtain ⟨n, hn⟩ := h.drawn publish hpublish
    have hnew := hfresh.new n entry
      (h.earlier.mem_iff.mpr (List.mem_append_right taken hentry))
    simp [settles, acknowledges, matchesClaim, hn, hnew]
  refine (h.later.filter _).trans ?_
  rw [List.filter_append, hgone, hkept, List.nil_append]

end Publish

section Pass

variable {s : Service} {state : State} {choices : Nat → PublishChoice}

theorem calls_claimFrom (before claimUntil : Int) (remaining : Nat)
    (result : List PendingPublish) :
    (claimFrom before claimUntil result remaining).Calls fun op =>
      ∀ exchange routingKey body, op ≠ .publish exchange routingKey body := by
  induction remaining generalizing result with
  | zero => exact trivial
  | succ remaining ih =>
      refine ⟨nofun, fun claimToken => ⟨nofun, fun reply => ?_⟩⟩
      match reply with
      | .error _ | .ok none => exact trivial
      | .ok (some claimed) => exact ih _

theorem answered_of {Q : State → Prop} {updated : State} {α : Type} (hkept : Q state)
    (hupdated : Q updated) (choice : PublishChoice) (answer : α) :
    Q (answered state updated choice answer).2 := by
  unfold answered
  split
  · exact hupdated
  · dsimp only
    split
    · exact hupdated
    · exact hkept

theorem publications_of_act {op : PublishOp} (run : String)
    (hop : ∀ exchange routingKey body, op ≠ .publish exchange routingKey body)
    (state : State) (choice : PublishChoice) :
    (publishAct run () state op choice).2.log.publications = state.log.publications := by
  have hanswered {α : Type} (updated : State) (answer : α)
      (hupdated : updated.log.publications = state.log.publications) :
      (answered state updated choice answer).2.log.publications =
        state.log.publications :=
    answered_of (Q := fun t => t.log.publications = state.log.publications) rfl hupdated
      choice answer
  cases op with
  | timeNow | newString => rfl
  | claim claimToken before claimUntil =>
      simp only [publishAct]
      split
      · exact hanswered _ _ rfl
      · exact hanswered _ _ rfl
  | publish exchange routingKey body => exact absurd rfl (hop exchange routingKey body)
  | retryPendingPublish | acknowledgePendingPublish => exact hanswered _ _ rfl

theorem publications_claim (state : State) (choices : Nat → PublishChoice) (run : String)
    (before claimUntil : Int) (limit : Nat) :
    ((claimPendingPublishes before claimUntil limit).run (publishAct run ()) choices
      state).2.log.publications = state.log.publications := by
  refine (calls_claimFrom before claimUntil limit []).run_rel
    (R := fun s t => t.log.publications = s.log.publications) (fun _ => rfl) ?_ ?_
    choices state
  · intro s t u hst htu
    exact htu.trans hst
  · intro op hop s choice
    exact publications_of_act run hop s choice

theorem parcels_of_claims {claimUntil : Int} {taken : List Entry}
    {publishes : List PendingPublish} (h : List.Forall₂ (Claims claimUntil) taken publishes) :
    publishes.map (fun publish => parcel publish.message) =
      taken.map fun entry => parcel entry.2 := by
  induction h with
  | nil => rfl
  | cons hclaims _ ih =>
      obtain ⟨_, claimToken, hmessage⟩ := hclaims
      rw [List.map_cons, List.map_cons, ih, hmessage]
      rfl

theorem accepted_append {final : State} {run : String} {publishes : List PendingPublish}
    (h : final.log.publications =
      state.log.publications ++ publishes.map (publicationOf run)) :
    accepted final = accepted state ++ publishes.map fun publish => parcel publish.message := by
  have hall : (publishes.map (publicationOf run)).filter Publication.accepted =
      publishes.map (publicationOf run) := by
    rw [List.filter_eq_self]
    intro publication hpublication
    obtain ⟨_, _, rfl⟩ := List.mem_map.mp hpublication
    rfl
  rw [accepted, h, List.filter_append, List.map_append, hall, List.map_map]
  rfl

/-- A run of `PublishPending` by an instance, with what it meets. -/
structure Turn where
  run : String
  choices : Nat → PublishChoice

/-- The state after a run. -/
def publish (s : Service) (state : State) (turn : Turn) : State :=
  ((publishPending s).run (publishAct turn.run ()) turn.choices state).2

/-- The second half of `PublishPending`. -/
def publishClaimed (s : Service) :
    Except String (List PendingPublish) → PublishProgram (Except String Unit)
  | .error error => return .error error
  | .ok pendingMessages => do
      publishAll s pendingMessages
      return .ok ()

/-- No call of the run fails, and it draws tokens that no message has. -/
structure Undisturbed (store : Store) (turn : Turn) : Prop where
  succeeds : ∀ n, (turn.choices n).failure = none
  fresh : Fresh store fun n => turn.choices (n + 1)

theorem run_publishPending {turn : Turn} {now : Int} (hnow : (turn.choices 0).now = now) :
    (publishPending s).run (publishAct turn.run ()) turn.choices state =
      (claimPendingPublishes now (now + pendingPublishLease) 100 >>= publishClaimed s).run
        (publishAct turn.run ()) (fun n => turn.choices (n + 1)) state := by
  subst hnow
  rfl

theorem publish_batch {turn : Turn} (h : Undisturbed state.store turn) :
    ∃ taken others, (entries state.store).Perm (taken ++ others) ∧
      taken.length = min 100 (dueCount (turn.choices 0).now state.store) ∧
      (entries (publish s state turn).store).Perm others ∧
      accepted (publish s state turn) =
        accepted state ++ taken.map fun entry => parcel entry.2 := by
  generalize hnow : (turn.choices 0).now = now
  have hlease : date now < date (now + pendingPublishLease) := by
    simp only [date, pendingPublishLease, GoTime.second]
    omega
  obtain ⟨taken, others, publishes, claimed, hclaim, htaken⟩ :=
    run_claimFrom_taken hlease turn.run 100 (fun n => h.succeeds (n + 1)) h.fresh []
  rw [List.nil_append] at hclaim
  have hpublications := publications_claim state (fun n => turn.choices (n + 1)) turn.run
    now (now + pendingPublishLease) 100
  rw [claimPendingPublishes, hclaim] at hpublications
  obtain ⟨k, hbind⟩ := run_bind (publishAct turn.run ())
    (claimPendingPublishes now (now + pendingPublishLease) 100) (publishClaimed s)
    (fun n => turn.choices (n + 1)) state
  rw [claimPendingPublishes, hclaim] at hbind
  obtain ⟨final, hall, hentries, hlater⟩ := @run_publishAll s claimed
    (fun n => turn.choices (n + k + 1)) turn.run publishes fun n => h.succeeds (n + k + 1)
  obtain ⟨k', hend⟩ := run_bind (publishAct turn.run ()) (publishAll s publishes)
    (fun _ => (pure (.ok ()) : PublishProgram (Except String Unit)))
    (fun n => turn.choices (n + k + 1)) claimed
  rw [hall] at hend
  have hfinal : publish s state turn = final := by
    rw [publish, run_publishPending hnow, claimPendingPublishes]
    exact congrArg Prod.snd (hbind.trans hend)
  refine ⟨taken, others, htaken.earlier, ?_, ?_, ?_⟩
  · rw [← htaken.length, htaken.claims.length_eq]
  · rw [hfinal, hentries]
    exact filter_taken htaken h.fresh
  · rw [hfinal, accepted_append hlater, parcels_of_claims htaken.claims, accepted, accepted,
      hpublications]

theorem apart_modify {id : String} {f : Payment → Payment}
    {hf : ∀ payment, (f payment).id = payment.id}
    (hapart : ∀ payment, apart (f payment) = apart payment) (log : Log)
    (paymentId : String) :
    ((state.modify id f hf log).store.payments.row paymentId).map apart =
      (state.store.payments.row paymentId).map apart := by
  rw [State.modify, Table.row_modify]
  split
  · rw [Option.map_map]
    exact congrArg (Option.map · _) (funext hapart)
  · rfl

theorem apart_of_act (run : String) (op : PublishOp) (state : State)
    (choice : PublishChoice) (paymentId : String) :
    ((publishAct run () state op choice).2.store.payments.row paymentId).map apart =
      (state.store.payments.row paymentId).map apart := by
  have hanswered {α : Type} (updated : State) (answer : α)
      (hupdated : (updated.store.payments.row paymentId).map apart =
        (state.store.payments.row paymentId).map apart) :=
    answered_of (Q := fun t => (t.store.payments.row paymentId).map apart =
      (state.store.payments.row paymentId).map apart) rfl hupdated choice answer
  cases op with
  | timeNow | newString => rfl
  | claim claimToken before claimUntil =>
      simp only [publishAct]
      split
      · exact hanswered _ _ rfl
      · refine hanswered _ _ (apart_modify ?_ _ paymentId)
        exact fun _ => rfl
  | publish exchange routingKey body =>
      simp only [publishAct]
      split <;> rfl
  | retryPendingPublish | acknowledgePendingPublish =>
      refine hanswered _ _ (apart_modify ?_ _ paymentId)
      exact fun _ => rfl

theorem apart_publish (s : Service) (state : State) (turn : Turn) (paymentId : String) :
    ((publish s state turn).store.payments.row paymentId).map apart =
      (state.store.payments.row paymentId).map apart := by
  have hcalls : (publishPending s).Calls fun _ => True :=
    calls_of_forall _ fun _ => trivial
  refine hcalls.run_rel (R := fun s t => (t.store.payments.row paymentId).map apart =
    (s.store.payments.row paymentId).map apart) (fun _ => rfl) ?_ ?_ turn.choices state
  · intro s t u hst htu
    exact htu.trans hst
  · intro op _ s choice
    exact apart_of_act turn.run op s choice paymentId

end Pass

section Passes

variable {s : Service} {state : State}

/-- The run finds everything that is stored due, and is not disturbed. -/
structure Works (store : Store) (turn : Turn) : Prop where
  undisturbed : Undisturbed store turn
  due : ∀ entry ∈ entries store, claimable (turn.choices 0).now entry.2 = true

theorem Works.subset {store store' : Store} {turn : Turn} (h : Works store turn)
    (hsubset : entries store' ⊆ entries store) : Works store' turn where
  undisturbed :=
    { succeeds := h.undisturbed.succeeds
      fresh :=
        { distinct := h.undisturbed.fresh.distinct
          new := fun n entry hentry => h.undisturbed.fresh.new n entry (hsubset hentry) } }
  due := fun entry hentry => h.due entry (hsubset hentry)

theorem handsOut_publish {turn : Turn} (h : Works state.store turn) :
    HandsOut pending accepted 100 state (publish s state turn) := by
  obtain ⟨taken, others, hearlier, hlength, hlater, haccepted⟩ :=
    publish_batch (s := s) h.undisturbed
  have hall : dueCount (turn.choices 0).now state.store = (entries state.store).length :=
    List.countP_eq_length.mpr h.due
  refine ⟨_, haccepted, ?_, ?_⟩
  · rw [pending, pending]
    refine ((hlater.map _).append_left _).trans ?_
    rw [← List.map_append]
    exact (hearlier.map _).symm
  · rw [List.length_map, hlength, hall, pending, List.length_map]

theorem works_publish {turn turn' : Turn} (h : Works state.store turn)
    (h' : Works state.store turn') : Works (publish s state turn).store turn' := by
  obtain ⟨taken, others, hearlier, _, hlater, _⟩ := publish_batch (s := s) h.undisturbed
  refine h'.subset fun entry hentry => hearlier.mem_iff.mpr ?_
  exact List.mem_append_right _ (hlater.mem_iff.mp hentry)

/-- The outboxes of all payments, and `PublishPending` over them. -/
def outbox (s : Service) : Outbox State Turn Parcel where
  pending := pending
  out := accepted
  limit := 100
  pass := publish s
  ready := fun state turns => ∀ turn ∈ turns, Works state.store turn
  handsOut := fun _ turn _ h => handsOut_publish (h turn List.mem_cons_self)
  stays := fun _ turn _ h turn' hturn' =>
    works_publish (h turn List.mem_cons_self) (h turn' (List.mem_cons_of_mem turn hturn'))

theorem apart_run (turns : List Turn) (paymentId : String) :
    (((outbox s).run state turns).store.payments.row paymentId).map apart =
      (state.store.payments.row paymentId).map apart := by
  induction turns generalizing state with
  | nil => rfl
  | cons turn turns ih => exact ih.trans (apart_publish s state turn paymentId)

/-- Once nothing fails any more, runs of `PublishPending` empty the outbox of every
payment, a hundred messages a run. -/
theorem publishPending_empties {turns : List Turn}
    (h : ∀ turn ∈ turns, Works state.store turn)
    (hturns : (entries state.store).length ≤ turns.length * 100) :
    (outbox s).Emptied state ((outbox s).run state turns) ∧
      ∀ paymentId, (((outbox s).run state turns).store.payments.row paymentId).map apart =
        (state.store.payments.row paymentId).map apart := by
  refine ⟨Outbox.emptied_run h ?_, apart_run turns⟩
  simpa [outbox, pending] using hturns

section Sample

/-- Sixty messages that are due. -/
def sampleMessages (letter : Char) : List PendingMessage :=
  (List.range 60).map fun n => sampleMessage (String.ofList (List.replicate n letter)) 0 none

/-- Two payments, each with sixty messages. -/
def sampleBacklog : State where
  store :=
    { payments :=
        (Table.empty.insertIfAbsent
          { samplePayment with pendingMessages := sampleMessages 'm' }).insertIfAbsent
          { samplePayment with
            id := "payment-2"
            idempotencyKey := "key-2"
            paymentReference := "ref-2"
            pendingMessages := sampleMessages 'n' }
      history := [] }
  log := .empty

/-- The clock of a run stands still, and its tokens get longer and longer. -/
def sampleTurn (run : String) (letter : Char) (now : Int) : Turn where
  run := run
  choices := fun n =>
    { sampleChoices n with
      now := now
      newId := String.ofList (List.replicate (n + 1) letter) }

theorem works_sample (run : String) (letter : Char) {now : Int}
    (hdue : ∀ entry ∈ entries sampleBacklog.store, claimable now entry.2 = true) :
    Works sampleBacklog.store (sampleTurn run letter now) where
  undisturbed :=
    { succeeds := fun _ => rfl
      fresh :=
        { distinct := by
            intro m n hsame
            have hindex := eq_of_token_eq hsame
            omega
          new := by
            intro n entry hentry htoken
            have hblank : ∀ entry ∈ entries sampleBacklog.store,
                entry.2.claimToken = "" := by decide +kernel
            have hempty := htoken.symm.trans (hblank entry hentry)
            exact token_ne_empty _ _ hempty } }
  due := hdue

theorem publishPending_empties_sample :
    (entries sampleBacklog.store).length = 120 ∧
    (outbox sampleService).Emptied sampleBacklog
        ((outbox sampleService).run sampleBacklog
          [sampleTurn "run-1" 'a' 0, sampleTurn "run-2" 'b' 5000000000]) ∧
      ∀ paymentId, (((outbox sampleService).run sampleBacklog
          [sampleTurn "run-1" 'a' 0, sampleTurn "run-2" 'b' 5000000000]).store.payments.row
            paymentId).map apart =
        (sampleBacklog.store.payments.row paymentId).map apart := by
  refine ⟨by decide +kernel, publishPending_empties ?_ (by decide +kernel)⟩
  intro turn hturn
  rcases List.mem_pair.mp hturn with rfl | rfl
  · exact works_sample "run-1" 'a' (by decide +kernel)
  · exact works_sample "run-2" 'b' (by decide +kernel)

end Sample

end Passes

end Modularis.Payments.Drain
