import Modularis.Payments.Publishing
import Modularis.Payments.Settlement

namespace Modularis.Payments.Provenance

open Modularis.Foundation
open Modularis.Foundation.Program
open Modularis.Payments.Models
open Modularis.Payments.Repository
open Modularis.Payments.Operations (Store)
open Modularis.Payments.Handlers
open Modularis.Payments.Effects
open Modularis.Payments.Aggregate
open Modularis.Payments.Ledger
open Modularis.Payments.Changes
open Modularis.Payments.Interleaving (Interference)
open Modularis.Payments.Uniqueness (Stored Kept)
open Modularis.Payments.Outbox
open Modularis.Payments.Claims
open Modularis.Payments.Publishing (row_of_target)
open Modularis.Payments.Settlement (Settled Announced Paid paid_of_confirmed)

section Updates

/-- A payment without its outbox. -/
def bare (payment : Payment) : Payment :=
  { payment with
    pendingMessages := []
    updatedAt := 0 }

/-- Only outboxes differ, and no message is new. -/
structure Redrawn (σ τ : Store) : Prop where
  history : τ.history = σ.history
  rows : ∀ paymentId,
    (τ.payments.row paymentId).map bare = (σ.payments.row paymentId).map bare
  letters : ∀ paymentId, letters τ paymentId ⊆ letters σ paymentId

variable {σ τ : Store} {state : State}

theorem Redrawn.refl (σ : Store) : Redrawn σ σ :=
  ⟨rfl, fun _ => rfl, fun _ => List.Subset.refl _⟩

theorem redrawn_modify {paymentId : String} {f : Payment → Payment}
    {hf : ∀ payment, (f payment).id = payment.id} {log : Log}
    (hbare : ∀ payment, bare (f payment) = bare payment)
    (hletters : ∀ other, letters (state.modify paymentId f hf log).store other ⊆
      letters state.store other) :
    Redrawn state.store (state.modify paymentId f hf log).store where
  history := rfl
  rows := by
    intro other
    simp only [State.modify, Table.row_modify]
    split
    · rw [Option.map_map]
      exact Option.map_congr fun payment _ => hbare payment
    · rfl
  letters := hletters

theorem redrawn_answered {α : Type} {updated : State}
    (h : Redrawn state.store updated.store) (choice : PublishChoice) (answer : α) :
    Redrawn state.store (answered state updated choice answer).2.store := by
  unfold answered
  split
  · exact h
  · dsimp only
    split
    · exact h
    · exact .refl _

theorem redrawn_publishAct (run : String) (state : State) (op : PublishOp)
    (choice : PublishChoice) :
    Redrawn state.store (publishAct run () state op choice).2.store := by
  cases op with
  | timeNow | newString => exact .refl _
  | claim claimToken before claimUntil =>
      simp only [publishAct]
      split
      · exact redrawn_answered (.refl _) choice none
      · refine redrawn_answered (redrawn_modify ?_ fun other => ?_) choice _
        · exact fun _ => rfl
        · rw [letters_claimed]
          exact List.Subset.refl _
  | publish exchange routingKey body =>
      simp only [publishAct]
      split
      · exact .refl _
      · exact .refl _
  | retryPendingPublish paymentId messageId claimToken nextAttemptAt attempts =>
      refine redrawn_answered (redrawn_modify ?_ fun other => ?_) choice _
      · exact fun _ => rfl
      · rw [letters_retried]
        exact List.Subset.refl _
  | acknowledgePendingPublish paymentId messageId claimToken =>
      refine redrawn_answered (redrawn_modify ?_ fun other => ?_) choice _
      · exact fun _ => rfl
      · rw [letters, box_acknowledged]
        split
        · exact List.map_subset letter List.filter_sublist.subset
        · exact List.Subset.refl _

theorem Redrawn.handedOver (h : Redrawn σ τ) (paymentId : String) :
    handedOver τ paymentId = handedOver σ paymentId := by
  simp only [Claims.handedOver, enqueued, commits, h.history]

theorem Redrawn.row (h : Redrawn σ τ) {paymentId : String} {q : Payment}
    (hq : τ.payments.row paymentId = some q) :
    ∃ p, σ.payments.row paymentId = some p ∧ bare q = bare p := by
  have hrow := h.rows paymentId
  rw [hq, Option.map_some, eq_comm, Option.map_eq_some_iff] at hrow
  obtain ⟨p, hp, hbare⟩ := hrow
  exact ⟨p, hp, hbare.symm⟩

theorem Redrawn.symm_row (h : Redrawn σ τ) {paymentId : String} {p : Payment}
    (hp : σ.payments.row paymentId = some p) :
    ∃ q, τ.payments.row paymentId = some q ∧ bare q = bare p := by
  have hrow := h.rows paymentId
  rw [hp, Option.map_some, Option.map_eq_some_iff] at hrow
  exact hrow

theorem of_bare {P : Payment → Prop} (hP : ∀ payment, P payment ↔ P (bare payment))
    {p q : Payment} (h : bare q = bare p) (hp : P p) : P q := by
  rw [hP, h, ← hP]
  exact hp

theorem Redrawn.storeOk (h : Redrawn σ τ) (hok : StoreOk σ) : StoreOk τ where
  payment := by
    intro paymentId q hq
    obtain ⟨p, hp, hbare⟩ := h.row hq
    obtain ⟨haggregate, hledger⟩ := hok.payment paymentId p hp
    have hcommits : commits τ paymentId = commits σ paymentId := by
      simp only [commits, h.history]
    rw [hcommits]
    refine ⟨of_bare (P := AggregateOk) (fun _ => ⟨?_, ?_⟩) hbare haggregate,
      of_bare (P := fun payment => LedgerOk payment (commits σ paymentId))
        (fun _ => ⟨?_, ?_⟩) hbare hledger⟩
    · exact fun hp => ⟨hp.1, hp.2, hp.3, hp.4, hp.5⟩
    · exact fun hp => ⟨hp.1, hp.2, hp.3, hp.4, hp.5⟩
    · exact fun hp => ⟨hp.1, hp.2, hp.3, hp.4, hp.5, hp.6, hp.7, hp.8, hp.9⟩
    · exact fun hp => ⟨hp.1, hp.2, hp.3, hp.4, hp.5, hp.6, hp.7, hp.8, hp.9⟩
  absent := by
    intro paymentId hnone
    have hrow := h.rows paymentId
    rw [hnone, Option.map_none, eq_comm, Option.map_eq_none_iff] at hrow
    simp only [commits, h.history]
    exact hok.absent paymentId hrow

theorem sameIdentity_of_bare {p q : Payment} (h : bare q = bare p) :
    SameIdentity p q := by
  refine of_bare (P := SameIdentity p) (fun _ => ⟨?_, ?_⟩) h (.refl p)
  · exact fun hp => ⟨hp.1, hp.2, hp.3, hp.4, hp.5, hp.6, hp.7, hp.8⟩
  · exact fun hp => ⟨hp.1, hp.2, hp.3, hp.4, hp.5, hp.6, hp.7, hp.8⟩

theorem Redrawn.interference (h : Redrawn σ τ) (i : String) : Interference i σ τ where
  history := ⟨[], by rw [h.history, List.append_nil],
    fun _ hcommit => absurd hcommit List.not_mem_nil⟩
  grows := by
    intro paymentId p hp
    obtain ⟨q, hq, hbare⟩ := h.symm_row hp
    have hstatus : q.paymentStatus = p.paymentStatus := congrArg (·.paymentStatus) hbare
    refine ⟨q, hq, sameIdentity_of_bare hbare, ?_⟩
    rw [hstatus]

theorem Redrawn.kept (h : Redrawn σ τ) : Kept σ τ := by
  intro p hp
  obtain ⟨q, hq, hbare⟩ := h.symm_row hp
  have hsame := sameIdentity_of_bare hbare
  rw [← hsame.id] at hq
  exact ⟨q, hq, hsame⟩

theorem Redrawn.settled (h : Redrawn σ τ) (hsettled : Settled σ) : Settled τ where
  stored := by
    intro commit hcommit
    rw [h.history] at hcommit
    obtain ⟨p, hp, hsame⟩ := hsettled.stored commit hcommit
    obtain ⟨q, hq, hpq⟩ := h.kept p hp
    exact ⟨q, hq, hsame.trans hpq⟩
  due := by
    rw [h.history]
    exact hsettled.due

theorem Redrawn.announced (h : Redrawn σ τ) (hannounced : Announced σ) :
    Announced τ := by
  rw [Announced, h.history]
  exact hannounced

end Updates

/-- The publication carries what a letter says. -/
def Carries (publication : Publication) (said : Letter) : Prop :=
  publication.exchange = said.exchange ∧ publication.routingKey = said.routingKey ∧
    publication.body = said.body

/-- The outbox of a payment was handed what was published. -/
def Sourced (store : Store) (publication : Publication) : Prop :=
  ∃ paymentId, ∃ said ∈ handedOver store paymentId, Carries publication said

/-- What is pending and what was published comes from the handlers. -/
structure Traced (state : State) : Prop where
  listed : ∀ paymentId,
    letters state.store paymentId ⊆ handedOver state.store paymentId
  publications : ∀ publication ∈ state.log.publications,
    Sourced state.store publication

/-- No letter that was handed over is forgotten. -/
def Remembers (σ τ : State) : Prop :=
  ∀ paymentId, handedOver σ.store paymentId ⊆ handedOver τ.store paymentId

/-- What a call of `PublishPending` does. -/
structure Republishes (σ τ : State) : Prop where
  redrawn : Redrawn σ.store τ.store
  publications : ∀ publication ∈ τ.log.publications,
    publication ∈ σ.log.publications ∨ Sourced σ.store publication

theorem Remembers.refl (σ : State) : Remembers σ σ := fun _ => List.Subset.refl _

theorem Remembers.trans {σ τ υ : State} (hστ : Remembers σ τ) (hτυ : Remembers τ υ) :
    Remembers σ υ := fun paymentId =>
  List.Subset.trans (hστ paymentId) (hτυ paymentId)

theorem Sourced.mono {σ τ : State} {publication : Publication}
    (h : Sourced σ.store publication) (hτ : Remembers σ τ) :
    Sourced τ.store publication := by
  obtain ⟨paymentId, said, hsaid, hcarries⟩ := h
  exact ⟨paymentId, said, hτ paymentId hsaid, hcarries⟩

theorem Republishes.refl (σ : State) : Republishes σ σ where
  redrawn := .refl σ.store
  publications := fun _ => .inl

theorem Republishes.remembers {σ τ : State} (h : Republishes σ τ) : Remembers σ τ := by
  intro paymentId
  rw [h.redrawn.handedOver]
  exact List.Subset.refl _

theorem Traced.republished {σ τ : State} (h : Traced σ) (hτ : Republishes σ τ) :
    Traced τ where
  listed := by
    intro paymentId
    rw [hτ.redrawn.handedOver]
    exact List.Subset.trans (hτ.redrawn.letters paymentId) (h.listed paymentId)
  publications := by
    intro publication hmem
    rcases hτ.publications publication hmem with hold | hnew
    · exact (h.publications publication hold).mono hτ.remembers
    · exact hnew.mono hτ.remembers

/-- Whatever is published was claimed before. -/
def rules : Pool.Rules publishAct where
  inv := Traced
  rely := fun _ => Remembers
  guar := fun _ _ => Republishes
  ready := fun _ _ => True
  rely_refl := fun _ => .refl
  rely_trans := fun _ _ _ _ => .trans
  guar_refl := fun _ _ => .refl
  inv_of_guar := fun _ _ _ _ => Traced.republished
  rely_of_guar := fun _ _ _ _ _ _ _ => Republishes.remembers
  ready_of_rely := fun _ _ _ _ _ => trivial

section Runs

variable {s : Service} {run : String} {state : State} {α : Type}

abbrev Keeps (run : String) (post : α → State → Prop) (p : PublishProgram α)
    (state : State) : Prop :=
  p.Safe (rules.contract run ()) post state

/-- What a run is about to publish was handed to an outbox. -/
def FromOutbox (state : State) (publish : PendingPublish) : Prop :=
  letter publish.message ∈ handedOver state.store publish.paymentId

theorem FromOutbox.mono {τ : State} {publish : PendingPublish}
    (h : FromOutbox state publish) (hτ : Remembers state τ) : FromOutbox τ publish :=
  hτ publish.paymentId h

theorem keeps_pure {post : α → State → Prop} (value : α)
    (h : ∀ τ, Remembers state τ → post value τ) :
    Keeps run post (pure value) state :=
  fun τ hτ _ => h τ hτ

theorem publications_answered {updated : State}
    (h : updated.log.publications = state.log.publications) (choice : PublishChoice)
    (answer : α) : (answered state updated choice answer).2.log.publications =
      state.log.publications := by
  unfold answered
  split
  · exact h
  · dsimp only
    split
    · exact h
    · rfl

theorem publications_publishAct {op : PublishOp}
    (hop : ∀ exchange routingKey body, op ≠ .publish exchange routingKey body)
    (choice : PublishChoice) :
    (publishAct run () state op choice).2.log.publications =
      state.log.publications := by
  cases op with
  | timeNow | newString => rfl
  | publish exchange routingKey body => exact absurd rfl (hop exchange routingKey body)
  | claim claimToken before claimUntil =>
      simp only [publishAct]
      split
      · exact publications_answered rfl choice none
      · refine publications_answered ?_ choice _
        rfl
  | retryPendingPublish | acknowledgePendingPublish =>
      refine publications_answered ?_ choice ()
      rfl

theorem publishAct_publish (run : String) (state : State)
    (exchange routingKey : String) (body : Body) (choice : PublishChoice) :
    (publishAct run () state (.publish exchange routingKey body) choice).2 =
      { state with
        log :=
          { state.log with
            publications := state.log.publications ++
              [{ run := run
                 exchange := exchange
                 routingKey := routingKey
                 body := body
                 accepted := choice.failure.isNone }] } } := by
  simp only [publishAct]
  cases choice.failure with
  | none => rfl
  | some error => rfl

theorem publications_subset (run : String) (state : State) (op : PublishOp)
    (choice : PublishChoice) :
    state.log.publications ⊆ (publishAct run () state op choice).2.log.publications := by
  by_cases hop : ∃ exchange routingKey body, op = .publish exchange routingKey body
  · obtain ⟨exchange, routingKey, body, rfl⟩ := hop
    rw [publishAct_publish]
    exact List.subset_append_left _ _
  · rw [publications_publishAct fun exchange routingKey body he =>
      hop ⟨exchange, routingKey, body, he⟩]
    exact List.Subset.refl _

theorem republishes_publishAct {op : PublishOp}
    (hop : ∀ exchange routingKey body, op ≠ .publish exchange routingKey body)
    (choice : PublishChoice) :
    Republishes state (publishAct run () state op choice).2 where
  redrawn := redrawn_publishAct run state op choice
  publications := by
    intro publication hmem
    rw [publications_publishAct hop] at hmem
    exact .inl hmem

theorem keeps_call {post : α → State → Prop} {op : PublishOp}
    {f : PublishReply op → PublishProgram α}
    (hop : ∀ exchange routingKey body, op ≠ .publish exchange routingKey body)
    (h : ∀ reply τ, Remembers state τ → Traced τ → Keeps run post (f reply) τ) :
    Keeps run post (call op >>= f) state := by
  refine safe_perform_bind fun τ hτ htraced choice => ?_
  have hact : Republishes τ (publishAct run () τ op choice).2 :=
    republishes_publishAct hop choice
  exact ⟨hact, h _ _ (hτ.trans hact.remembers) (htraced.republished hact)⟩

theorem letter_publish {before : Int} (document : Eligible before)
    (claimToken : String) (claimUntil now : Int) :
    letter (document.claim claimToken claimUntil now).publish.message ∈
      document.payment.pendingMessages.map letter := by
  have hletters : (document.claim claimToken claimUntil
      now).paymentRecord.pendingMessages.map letter =
        document.payment.pendingMessages.map letter := by
    refine letters_updateFirst (fun message => ?_) document.payment.pendingMessages
    rfl
  rw [← hletters]
  refine List.mem_map_of_mem (List.mem_of_find?_eq_some (Option.some_get _).symm)

theorem fromOutbox_of_claim (htraced : Traced state) {claimToken : String}
    {before claimUntil : Int} {choice : PublishChoice} {claimed : Claimed claimToken}
    (h : (publishAct run () state (.claim claimToken before claimUntil) choice).1 =
      .ok (some claimed)) : FromOutbox state claimed.publish := by
  simp only [publishAct] at h
  cases htarget : target state.store.payments before choice.document with
  | none =>
      rw [htarget] at h
      cases hfailure : choice.failure <;> simp [answered, hfailure] at h
  | some document =>
      rw [htarget] at h
      cases hfailure : choice.failure with
      | some error => simp [answered, hfailure] at h
      | none =>
          simp only [answered, hfailure] at h
          obtain rfl := Option.some.inj (Except.ok.inj h)
          have hletter := letter_publish document claimToken claimUntil choice.now
          rw [← box_of_row (row_of_target htarget)] at hletter
          exact htraced.listed document.payment.id hletter

theorem keeps_claimFrom (before claimUntil : Int) (remaining : Nat)
    {result : List PendingPublish} (hresult : ∀ publish ∈ result, FromOutbox state publish) :
    Keeps run (fun reply τ => ∀ publishes, reply = .ok publishes →
        ∀ publish ∈ publishes, FromOutbox τ publish)
      (claimFrom before claimUntil result remaining) state := by
  induction remaining generalizing result state with
  | zero =>
      refine keeps_pure _ fun τ hτ => ?_
      rintro _ ⟨⟩ publish hpublish
      exact (hresult publish hpublish).mono hτ
  | succ remaining ih =>
      refine keeps_call (fun _ _ _ => nofun) fun claimToken σ hσ _ => ?_
      refine safe_perform_bind fun τ hτ htraced choice => ?_
      have hact : Republishes τ
          (publishAct run () τ (.claim claimToken before claimUntil) choice).2 :=
        republishes_publishAct (by simp) choice
      have hold (publish : PendingPublish) (hpublish : publish ∈ result) :
          FromOutbox (publishAct run () τ (.claim claimToken before claimUntil) choice).2
            publish :=
        ((hresult publish hpublish).mono (hσ.trans hτ)).mono hact.remembers
      refine ⟨hact, ?_⟩
      dsimp only [Pool.Rules.contract]
      cases hreply : (publishAct run () τ
          (.claim claimToken before claimUntil) choice).1 with
      | error error =>
          refine keeps_pure _ fun υ _ => ?_
          rintro _ ⟨⟩
      | ok answer =>
          cases answer with
          | none =>
              refine keeps_pure _ fun υ hυ => ?_
              rintro _ ⟨⟩ publish hpublish
              exact (hold publish hpublish).mono hυ
          | some claimed =>
              refine ih fun publish hpublish => ?_
              rcases List.mem_append.mp hpublish with hpublish | hpublish
              · exact hold publish hpublish
              · rw [List.mem_singleton.mp hpublish]
                exact (fromOutbox_of_claim htraced hreply).mono hact.remembers

theorem keeps_publishOne {publish : PendingPublish} (hpublish : FromOutbox state publish) :
    Keeps run (fun _ _ => True) (publishOne s publish) state := by
  refine safe_perform_bind fun τ hτ htraced choice => ?_
  have hact : Republishes τ (publishAct run () τ (.publish publish.message.exchange
      publish.message.routingKey publish.message.body) choice).2 := by
    refine ⟨redrawn_publishAct run τ _ choice, fun publication hmem => ?_⟩
    rw [publishAct_publish] at hmem
    rcases List.mem_append.mp hmem with hold | hnew
    · exact .inl hold
    · rw [List.mem_singleton.mp hnew]
      exact .inr ⟨publish.paymentId, _, hpublish.mono hτ, rfl, rfl, rfl⟩
  refine ⟨hact, ?_⟩
  dsimp only [Pool.Rules.contract]
  cases (publishAct run () τ (.publish publish.message.exchange
      publish.message.routingKey publish.message.body) choice).1 with
  | error error =>
      refine keeps_call (fun _ _ _ => nofun) fun now υ _ _ => ?_
      exact keeps_call (fun _ _ _ => nofun) fun _ _ _ _ => keeps_pure _ fun _ _ => trivial
  | ok =>
      exact keeps_call (fun _ _ _ => nofun) fun _ _ _ _ => keeps_pure _ fun _ _ => trivial

theorem keeps_publishAll {publishes : List PendingPublish} (htraced : Traced state)
    (hpublishes : ∀ publish ∈ publishes, FromOutbox state publish) :
    Keeps run (fun _ _ => True) (publishAll s publishes) state := by
  induction publishes generalizing state with
  | nil => exact keeps_pure () fun _ _ => trivial
  | cons publish publishes ih =>
      obtain ⟨hfirst, hrest⟩ := List.forall_mem_cons.mp hpublishes
      have hone : Keeps run (fun _ _ => True) (publishOne s publish) state :=
        keeps_publishOne hfirst
      have hone := hone.with_stable
        (Q := fun τ => ∀ other ∈ publishes, FromOutbox τ other) hrest
        (fun τ υ hτ (hυ : Remembers τ υ) other hother => (hτ other hother).mono hυ)
        (fun τ υ hτ (hυ : Republishes τ υ) other hother =>
          (hτ other hother).mono hυ.remembers)
      exact hone.bind htraced fun _ τ hτ hrest => ih hτ hrest.2

theorem keeps_publishPending (run : String) (state : State) :
    Keeps run (fun _ _ => True) (publishPending s) state := by
  refine keeps_call (fun _ _ _ => nofun) fun now τ _ htraced => ?_
  refine (keeps_claimFrom _ _ _ fun _ hmem => absurd hmem List.not_mem_nil).bind htraced
    fun reply υ htraced hpublishes => ?_
  cases reply with
  | error => exact keeps_pure _ fun _ _ => trivial
  | ok publishes =>
      exact (keeps_publishAll htraced (hpublishes publishes rfl)).bind htraced
        fun _ _ _ _ => keeps_pure _ fun _ _ => trivial

end Runs

section Worlds

variable {s : Service} {world next : World}

/-- The invocation that wrote stands in the pool. -/
def Recorded (payments : Interleaving.World) : Prop :=
  ∀ commit ∈ payments.shared.history, ∃ rest,
    payments.invocations commit.invocation =
      some { request := commit.request, rest := rest }

/-- The handlers and the runs beside each other. -/
structure Accounted (world : World) : Prop where
  handlers : Pool.Orderly Interleaving.rules (fun _ _ _ _ => True) world.payments
  settled : Pool.Orderly Settlement.rules (fun _ _ _ _ => True) world.payments
  publishers : Pool.Orderly rules (fun _ _ _ _ => True) world.publishing
  announced : Announced world.payments.shared
  recorded : Recorded world.payments

theorem accounted_init : Accounted World.init where
  handlers := Pool.orderly_init storeOk_empty
    fun _ _ hcommit => absurd hcommit List.not_mem_nil
  settled := Pool.orderly_init Settlement.settled_empty fun _ => trivial
  publishers := Pool.orderly_init ⟨fun _ => List.Subset.refl _,
    fun _ hmem => absurd hmem List.not_mem_nil⟩ fun _ => trivial
  announced := fun _ hcommit => absurd hcommit List.not_mem_nil
  recorded := fun _ hcommit => absurd hcommit List.not_mem_nil

theorem recorded_of_step {payments later : Interleaving.World}
    {event : Interleaving.Event} (h : Recorded payments)
    (hstep : Interleaving.step s payments event = some later)
    (hmoved : Pool.Moved Settlement.rules payments later.shared) : Recorded later := by
  intro commit hcommit
  cases hmoved with
  | kept hsame =>
      rw [hsame] at hcommit
      obtain ⟨rest, hinvocation⟩ := h commit hcommit
      exact Pool.kept_of_step hstep hinvocation
  | acted i invocation hinvocation hwrites =>
      obtain ⟨added, hhistory, hadded⟩ := hwrites.added
      rw [hhistory] at hcommit
      rcases List.mem_append.mp hcommit with hold | hnew
      · obtain ⟨rest, hinvocation⟩ := h commit hold
        exact Pool.kept_of_step hstep hinvocation
      · obtain ⟨rfl, hrequest, _⟩ := hadded commit hnew
        rw [hrequest]
        exact Pool.kept_of_step hstep hinvocation

theorem traced_of_handler {payments : Interleaving.World} {event : Interleaving.Event}
    (h : Traced world.publishing.shared)
    (hstep : Interleaving.step s world.payments event = some payments) :
    Traced { store := payments.shared, log := world.log } ∧
      Remembers world.publishing.shared { store := payments.shared, log := world.log } := by
  by_cases hact : ∃ i choice, event = .act i choice
  · obtain ⟨i, choice, rfl⟩ := hact
    obtain ⟨request, op, next, _, hshared⟩ := Pool.step_act hstep
    obtain ⟨paymentId, added, happends, _⟩ := appends_of_changed
      (changed_act i request world.payments.shared op choice)
    rw [← hshared] at happends
    have hremembers : Remembers world.publishing.shared
        { store := payments.shared, log := world.log } := by
      intro other
      change handedOver world.payments.shared other ⊆ handedOver payments.shared other
      rw [happends.handedOver]
      exact List.subset_append_left _ _
    refine ⟨⟨fun other => ?_, fun publication hmem => ?_⟩, hremembers⟩
    · change letters payments.shared other ⊆ handedOver payments.shared other
      rw [happends.letters, happends.handedOver]
      exact List.append_subset.mpr
        ⟨List.subset_append_of_subset_left _ (h.listed other), List.subset_append_right _ _⟩
    · exact (h.publications publication hmem).mono hremembers
  · rw [Pool.shared_of_step (fun i choice he => hact ⟨i, choice, he⟩) hstep]
    exact ⟨h, .refl _⟩

theorem accounted_of_handler {payments : Interleaving.World}
    {event : Interleaving.Event} (h : Accounted world)
    (hstep : Interleaving.step s world.payments event = some payments) :
    Accounted { world with payments := payments } := by
  obtain ⟨hhandlers, heffect⟩ := h.handlers.step
    (fun _ request _ hok hunused => Conduct.keeps_program hok hunused request) hstep
  obtain ⟨hsettled, hwrites⟩ := h.settled.step
    (fun _ request _ hinv _ => Settlement.keeps_program hinv request) hstep
  obtain ⟨htraced, hremembers⟩ := traced_of_handler h.publishers.inv hstep
  have hannounced : Announced payments.shared := by
    cases heffect with
    | kept hsame =>
        rw [hsame]
        exact h.announced
    | acted _ _ _ heffect => exact Settlement.announced_of_effect h.announced heffect
  exact
    { handlers := hhandlers
      settled := hsettled
      publishers := h.publishers.external htraced fun _ => hremembers
      announced := hannounced
      recorded := recorded_of_step h.recorded hstep hwrites }

theorem accounted_of_publisher {publishing : Publishers} {event : PublishEvent}
    (h : Accounted world) (hstep : Pool.step (fun _ => publishPending s) publishAct
      world.publishing event = some publishing) :
    Accounted (world.withPublishing publishing) := by
  obtain ⟨hpublishers, hmoved⟩ := h.publishers.step
    (fun run _ state _ _ => keeps_publishPending run state) hstep
  have hredrawn : Redrawn world.payments.shared publishing.shared.store := by
    cases hmoved with
    | kept hsame =>
        rw [hsame]
        exact .refl _
    | acted _ _ _ hrepublishes => exact hrepublishes.redrawn
  exact
    { handlers := h.handlers.external (hredrawn.storeOk h.handlers.inv)
        hredrawn.interference
      settled := h.settled.external (hredrawn.settled h.settled.inv)
        fun _ => hredrawn.kept
      publishers := hpublishers
      announced := hredrawn.announced h.announced
      recorded := by
        intro commit hcommit
        refine h.recorded commit ?_
        rw [← hredrawn.history]
        exact hcommit }

theorem accounted_of_step {event : Event} (h : Accounted world)
    (hstep : step s world event = some next) : Accounted next := by
  cases event with
  | handler event =>
      obtain ⟨payments, hpayments, rfl⟩ := Option.map_eq_some_iff.mp hstep
      exact accounted_of_handler h hpayments
  | publisher event =>
      obtain ⟨publishing, hpublishing, rfl⟩ := Option.map_eq_some_iff.mp hstep
      exact accounted_of_publisher h hpublishing

theorem paid_of_published (h : Accounted world) {publication : Publication}
    (hmem : publication ∈ world.log.publications)
    (hkey : publication.routingKey = "payment.confirmed") :
    ∃ payment envelope, Paid world.payments.shared payment ∧
      publication.body = .confirmed envelope ∧
      envelope.payload.userId = payment.userId := by
  obtain ⟨paymentId, said, hsaid, _, hsame, hbody⟩ :=
    h.publishers.inv.publications publication hmem
  obtain ⟨message, hmessage, rfl⟩ := List.mem_map.mp hsaid
  rw [hbody]
  exact paid_of_confirmed h.handlers.inv h.settled.inv h.announced hmessage
    (hsame.symm.trans hkey)

end Worlds

end Modularis.Payments.Provenance
