import Modularis.Payments.Provenance

namespace Modularis.Payments.Broadcasts

open Modularis.Foundation
open Modularis.Payments.Models
open Modularis.Payments.Repository
open Modularis.Payments.Operations (Request Store Commit)
open Modularis.Payments.Handlers
open Modularis.Payments.Effects
open Modularis.Payments.Aggregate
open Modularis.Payments.Ledger
open Modularis.Payments.Claims (letter handedOver)
open Modularis.Payments.Uniqueness (Stored)
open Modularis.Payments.Outbox
open Modularis.Payments.Provenance

/-- A write left the payment with this status. -/
def Had (store : Store) (paymentId : String) (status : PaymentStatus)
    (delivery : DeliveryStatus) : Prop :=
  ∃ commit ∈ commits store paymentId, commit.write.after.paymentStatus = status ∧
    commit.write.after.deliveryStatus = delivery

/-- The message announces a status that the payment had. -/
def Narrates (store : Store) (payment : Payment) (message : PendingMessage) : Prop :=
  ∃ status delivery, Announces payment status delivery message ∧
    Had store payment.id status delivery

/-- The keys under which the service publishes. -/
def eventKeys : List String :=
  ["payment.process.requested", "payment.callback.confirmed", "payment.status-updated",
    "payment.delivery.requested", "payment.confirmed"]

/-- Every commit has told what it has changed, in messages of its own. -/
structure Narrated (store : Store) : Prop where
  sound : ∀ commit ∈ store.history, AggregateOk commit.write.after
  keyed : ∀ commit ∈ store.history, ∀ message ∈ commit.write.pushed,
    message.routingKey ∈ eventKeys
  told : ∀ commit ∈ store.history, ∀ message ∈ commit.write.pushed,
    message.routingKey = "payment.status-updated" →
      Narrates store commit.write.after message

section Effects

variable {σ τ : Store} {i : String} {request : Request} {payment : Payment}

theorem history_record (store : Store) (i : String) (request : Request)
    (result : Option Write × Collection) :
    store.history ⊆ (store.record i request result).history :=
  List.subset_append_left _ _

theorem narrated_empty : Narrated Store.empty where
  sound := fun _ hcommit => absurd hcommit List.not_mem_nil
  keyed := fun _ hcommit => absurd hcommit List.not_mem_nil
  told := fun _ hcommit => absurd hcommit List.not_mem_nil

theorem Had.mono {paymentId : String} {status : PaymentStatus} {delivery : DeliveryStatus}
    (h : Had σ paymentId status delivery) (hhistory : σ.history ⊆ τ.history) :
    Had τ paymentId status delivery := by
  obtain ⟨commit, hcommit, hstatus⟩ := h
  obtain ⟨hmem, hid⟩ := List.mem_filter.mp hcommit
  exact ⟨commit, List.mem_filter.mpr ⟨hhistory hmem, hid⟩, hstatus⟩

theorem Narrates.mono {message : PendingMessage} (h : Narrates σ payment message)
    (hhistory : σ.history ⊆ τ.history) : Narrates τ payment message := by
  obtain ⟨status, delivery, hannounces, hhad⟩ := h
  exact ⟨status, delivery, hannounces, hhad.mono hhistory⟩

theorem had_of_holds (h : Narrated σ) (hholds : Holds σ i payment.id) :
    Had σ payment.id .processing .pending := by
  obtain ⟨commit, hcommit, _, hreserves⟩ := hholds.reserved
  have hstatus : commit.write.after.paymentStatus = .processing := hreserves.2
  have hsound := h.sound commit (List.mem_filter.mp hcommit).1
  exact ⟨commit, hcommit, hstatus, hsound.delivery_pending (by simp [hstatus])⟩

theorem had_of_permitted (h : Narrated σ) (hpayment : AggregateOk payment)
    {update : Update} (hupdated : AggregateOk (update.apply payment))
    (hfilter : update.filter payment = true)
    (hpermitted : Permitted σ i request payment update) {message : PendingMessage}
    (hmem : message ∈ update.push) (hkey : message.routingKey = "payment.status-updated") :
    ∃ status delivery, Announces (update.apply payment) status delivery message ∧
      (Had σ (update.apply payment).id status delivery ∨
        (update.apply payment).paymentStatus = status ∧
          (update.apply payment).deliveryStatus = delivery) := by
  cases hpermitted with
  | reserve => cases hmem
  | announce _ hannounces hholds =>
      obtain rfl := List.mem_singleton.mp hmem
      exact ⟨_, _, hannounces, .inl (had_of_holds h hholds)⟩
  | simulate _ hcallback =>
      obtain rfl := List.mem_singleton.mp hmem
      rw [hcallback] at hkey
      exact absurd hkey (by decide)
  | fail _ _ hannounces =>
      obtain rfl := List.mem_singleton.mp hmem
      exact ⟨_, _, hannounces, .inr ⟨rfl, hupdated.delivery_pending nofun⟩⟩
  | expire _ hannounces =>
      obtain rfl := List.mem_singleton.mp hmem
      exact ⟨_, _, hannounces, .inr ⟨rfl, hupdated.delivery_pending nofun⟩⟩
  | complete _ _ _ hannounces hrequests =>
      rcases List.mem_pair.mp hmem with rfl | rfl
      · have hopen : payment.paymentStatus ≠ .completed := by
          intro hcompleted
          change isOpen payment = true at hfilter
          simp [isOpen, hcompleted] at hfilter
        exact ⟨_, _, hannounces, .inr ⟨rfl, hpayment.delivery_pending hopen⟩⟩
      · rw [hrequests.1] at hkey
        exact absurd hkey (by decide)
  | deliver _ hannounces hconfirms =>
      rcases List.mem_pair.mp hmem with rfl | rfl
      · have hcompleted := of_decide_eq_true hfilter
        exact ⟨_, _, hannounces, .inr ⟨hcompleted.1, rfl⟩⟩
      · rw [hconfirms.1] at hkey
        exact absurd hkey (by decide)

theorem keyed_of_permitted {update : Update}
    (hpermitted : Permitted σ i request payment update) :
    ∀ message ∈ update.push, message.routingKey ∈ eventKeys := by
  intro message hmem
  cases hpermitted with
  | reserve => cases hmem
  | announce _ hannounces | fail _ _ hannounces | expire _ hannounces =>
      obtain rfl := List.mem_singleton.mp hmem
      simp [hannounces.1, eventKeys]
  | simulate _ hcallback =>
      obtain rfl := List.mem_singleton.mp hmem
      simp [hcallback, eventKeys]
  | complete _ _ _ hannounces hrequests =>
      rcases List.mem_pair.mp hmem with rfl | rfl
      · simp [hannounces.1, eventKeys]
      · simp [hrequests.1, eventKeys]
  | deliver _ hannounces hconfirms =>
      rcases List.mem_pair.mp hmem with rfl | rfl
      · simp [hannounces.1, eventKeys]
      · simp [hconfirms.1, eventKeys]

theorem Narrated.record (h : Narrated σ) {write : Write} {payments : Collection}
    (hτ : τ = σ.record i request (some write, payments)) (hsound : AggregateOk write.after)
    (hkeyed : ∀ message ∈ write.pushed, message.routingKey ∈ eventKeys)
    (htold : ∀ message ∈ write.pushed, message.routingKey = "payment.status-updated" →
      Narrates τ write.after message) : Narrated τ := by
  subst hτ
  constructor
  · intro commit hcommit
    rcases List.mem_append.mp hcommit with hold | hlast
    · exact h.sound commit hold
    · obtain rfl := List.mem_singleton.mp hlast
      exact hsound
  · intro commit hcommit
    rcases List.mem_append.mp hcommit with hold | hlast
    · exact h.keyed commit hold
    · obtain rfl := List.mem_singleton.mp hlast
      exact hkeyed
  · intro commit hcommit message hmem hkey
    rcases List.mem_append.mp hcommit with hold | hlast
    · exact (h.told commit hold message hmem hkey).mono (history_record σ i request _)
    · obtain rfl := List.mem_singleton.mp hlast
      exact htold message hmem hkey

theorem narrated_of_effect (h : Narrated σ) (hok : StoreOk σ)
    (heffect : Effect i request σ τ) : Narrated τ := by
  have hok' := storeOk_of_effect hok heffect
  cases heffect with
  | kept => exact h
  | @created payment hfresh hnew =>
      refine h.record rfl ?_ (fun message hmem => ?_) fun message hmem hkey => ?_
      · refine (hok'.payment payment.id payment ?_).1
        exact (row_created hnew payment.id).trans (if_pos rfl)
      · simp [hfresh.messages message hmem, eventKeys]
      · rw [hfresh.messages message hmem] at hkey
        exact absurd hkey (by decide)
  | @updated payment update hrow hfilter hpermitted =>
      have hupdated : AggregateOk (update.apply payment) := by
        refine (hok'.payment payment.id (update.apply payment) ?_).1
        exact (row_updated hrow payment.id).trans (if_pos rfl)
      refine h.record rfl hupdated (fun message hmem => ?_) fun message hmem hkey => ?_
      · obtain ⟨original, horiginal, rfl⟩ := List.mem_map.mp hmem
        exact keyed_of_permitted hpermitted original horiginal
      · obtain ⟨original, horiginal, rfl⟩ := List.mem_map.mp hmem
        obtain ⟨status, delivery, hannounces, hhad⟩ := had_of_permitted h
          (hok.payment payment.id payment hrow).1 hupdated hfilter hpermitted horiginal hkey
        have hstored : Announces _ status delivery (PendingMessage.stored original) :=
          hannounces
        refine ⟨status, delivery, hstored, ?_⟩
        rcases hhad with hbefore | hnow
        · exact hbefore.mono (history_record σ i request _)
        · refine ⟨_, List.mem_filter.mpr ⟨List.mem_append_right _
            (List.mem_singleton_self _), ?_⟩, hnow⟩
          exact decide_eq_true rfl

end Effects

section Worlds

variable {s : Service} {world next : World}

theorem Narrated.redrawn {σ τ : Store} (h : Narrated σ) (hτ : Redrawn σ τ) : Narrated τ where
  sound := by
    rw [hτ.history]
    exact h.sound
  keyed := by
    rw [hτ.history]
    exact h.keyed
  told := by
    intro commit hcommit message hmem hkey
    rw [hτ.history] at hcommit
    refine (h.told commit hcommit message hmem hkey).mono ?_
    rw [hτ.history]
    exact List.Subset.refl _

theorem narrated_of_step (haccounted : Accounted world)
    (h : Narrated world.payments.shared) {event : Event}
    (hstep : step s world event = some next) : Narrated next.payments.shared := by
  cases event with
  | handler event =>
      obtain ⟨payments, hpayments, rfl⟩ := Option.map_eq_some_iff.mp hstep
      obtain ⟨_, hmoved⟩ := haccounted.handlers.step
        (fun _ request _ hok hunused => Conduct.keeps_program hok hunused request) hpayments
      cases hmoved with
      | kept hsame =>
          change Narrated payments.shared
          rw [hsame]
          exact h
      | acted _ _ _ heffect => exact narrated_of_effect h haccounted.handlers.inv heffect
  | publisher event =>
      obtain ⟨publishing, hpublishing, rfl⟩ := Option.map_eq_some_iff.mp hstep
      obtain ⟨_, hmoved⟩ := haccounted.publishers.step
        (fun run _ state _ _ => keeps_publishPending run state) hpublishing
      refine h.redrawn ?_
      cases hmoved with
      | kept hsame =>
          change Redrawn world.payments.shared publishing.shared.store
          rw [hsame]
          exact .refl _
      | acted _ _ _ hrepublishes => exact hrepublishes.redrawn

theorem narrated_of_reachable (h : StepSystem.Reachable (step s) World.init world) :
    Accounted world ∧ Narrated world.payments.shared :=
  h.invariant (I := fun world => Accounted world ∧ Narrated world.payments.shared)
    ⟨accounted_init, narrated_empty⟩ fun _ _ _ hbefore hstep =>
      ⟨accounted_of_step hbefore.1 hstep, narrated_of_step hbefore.1 hbefore.2 hstep⟩

theorem pushed_of_published (haccounted : Accounted world) {publication : Publication}
    (hmem : publication ∈ world.log.publications) :
    ∃ commit ∈ world.payments.shared.history, ∃ message ∈ commit.write.pushed,
      publication.routingKey = message.routingKey ∧ publication.body = message.body := by
  obtain ⟨paymentId, said, hsaid, _, hsame, hbody⟩ :=
    haccounted.publishers.inv.publications publication hmem
  obtain ⟨message, hmessage, rfl⟩ := List.mem_map.mp hsaid
  obtain ⟨commit, hcommit, hpushed⟩ := List.mem_flatMap.mp hmessage
  exact ⟨commit, (List.mem_filter.mp hcommit).1, message, hpushed, hsame, hbody⟩

theorem had_of_published (haccounted : Accounted world)
    (h : Narrated world.payments.shared) {publication : Publication}
    (hmem : publication ∈ world.log.publications)
    (hkey : publication.routingKey = "payment.status-updated") :
    ∃ payment envelope, Stored world.payments.shared payment ∧
      publication.body = .statusUpdated envelope ∧
      envelope.payload.paymentId = payment.id ∧
      envelope.payload.userId = payment.userId ∧
      Had world.payments.shared payment.id envelope.payload.paymentStatus
        envelope.payload.deliveryStatus := by
  obtain ⟨commit, hhistory, message, hpushed, hsame, hbody⟩ :=
    pushed_of_published haccounted hmem
  obtain ⟨status, delivery, ⟨_, envelope, hstated, _, hid, huser, hstatus, hdelivery⟩, hhad⟩ :=
    h.told commit hhistory message hpushed (hsame.symm.trans hkey)
  obtain ⟨payment, hstored, hpayment⟩ := haccounted.settled.inv.stored commit hhistory
  refine ⟨payment, envelope, hstored, hbody.trans hstated, hid.trans hpayment.id.symm,
    huser.trans hpayment.userId.symm, ?_⟩
  rw [hstatus, hdelivery, hpayment.id]
  exact hhad

theorem keyed_of_published (haccounted : Accounted world)
    (h : Narrated world.payments.shared) {publication : Publication}
    (hmem : publication ∈ world.log.publications) :
    publication.routingKey ∈ eventKeys := by
  obtain ⟨commit, hhistory, message, hpushed, hsame, _⟩ :=
    pushed_of_published haccounted hmem
  rw [hsame]
  exact h.keyed commit hhistory message hpushed

end Worlds

end Modularis.Payments.Broadcasts
