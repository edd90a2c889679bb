import Modularis.Payments.Ledger

/-!
Any number of invocations of the handlers over one store.  An invocation takes
one call at a time, may be cut off before any of them and may see a repository
call fail.  No handler leaves the effects that `Permitted` lists.
-/

namespace Modularis.Payments.Interleaving

open Modularis.Foundation
open Modularis.Foundation.Program
open Modularis.Shared.Messaging
open Modularis.Payments.Models
open Modularis.Payments.Repository
open Modularis.Payments.Operations
open Modularis.Payments.Handlers
open Modularis.Payments.Effects
open Modularis.Payments.Aggregate
open Modularis.Payments.Ledger

/-- The handlers over one store. -/
abbrev World := Pool Reply String Request Answer Store

abbrev Event := Pool.Event String Request Choice

/-- Nothing is stored and no handler runs. -/
def World.init : World := Pool.init Store.empty

/-- A handler is called, makes its next call, or stops. -/
abbrev step (s : Service) : World → Event → Option World :=
  Pool.step (program s) act

abbrev Run (s : Service) := StepSystem.Run (step s) World.init

abbrev Reachable (s : Service) := StepSystem.Reachable (step s) World.init

/-- Every stored payment of `σ` is still stored in `τ`, in a later state. -/
def Grows (σ τ : Store) : Prop :=
  ∀ paymentId p, σ.payments.row paymentId = some p →
    ∃ q, τ.payments.row paymentId = some q ∧ Later p q

theorem Grows.refl (σ : Store) : Grows σ σ :=
  fun _ p hrow => ⟨p, hrow, Later.refl p⟩

theorem Grows.trans {σ τ υ : Store} (hστ : Grows σ τ) (hτυ : Grows τ υ) :
    Grows σ υ := by
  intro paymentId p hp
  obtain ⟨q, hq, hpq⟩ := hστ paymentId p hp
  obtain ⟨r, hr, hqr⟩ := hτυ paymentId q hq
  exact ⟨r, hr, hpq.trans hqr⟩

section Appended

variable {α : Type} {P : α → Prop} {l m n : List α}

theorem appended_refl (P : α → Prop) (l : List α) :
    ∃ added, l = l ++ added ∧ ∀ a ∈ added, P a :=
  ⟨[], (List.append_nil l).symm, fun _ h => absurd h List.not_mem_nil⟩

theorem appended_trans (hm : ∃ added, m = l ++ added ∧ ∀ a ∈ added, P a)
    (hn : ∃ added, n = m ++ added ∧ ∀ a ∈ added, P a) :
    ∃ added, n = l ++ added ∧ ∀ a ∈ added, P a := by
  obtain ⟨first, rfl, hfirst⟩ := hm
  obtain ⟨second, rfl, hsecond⟩ := hn
  refine ⟨first ++ second, List.append_assoc l first second, ?_⟩
  intro a ha
  rcases List.mem_append.mp ha with h | h
  · exact hfirst a h
  · exact hsecond a h

end Appended

/-- What an invocation may see the others do. -/
structure Interference (invocation : String) (σ τ : Store) : Prop where
  history : ∃ added, τ.history = σ.history ++ added ∧
    ∀ commit ∈ added, commit.invocation ≠ invocation
  grows : Grows σ τ

theorem Interference.refl (invocation : String) (σ : Store) :
    Interference invocation σ σ where
  history := appended_refl _ _
  grows := Grows.refl σ

theorem Interference.trans {invocation : String} {σ τ υ : Store}
    (hστ : Interference invocation σ τ) (hτυ : Interference invocation τ υ) :
    Interference invocation σ υ where
  history := appended_trans hστ.history hτυ.history
  grows := hστ.grows.trans hτυ.grows

section Effects

variable {invocation : String} {request : Request} {σ τ : Store}

theorem history_of_effect (h : Effect invocation request σ τ) :
    ∃ added, τ.history = σ.history ++ added ∧
      ∀ commit ∈ added, commit.invocation = invocation := by
  cases h with
  | kept => exact appended_refl _ _
  | created | updated =>
      refine ⟨_, rfl, fun commit hcommit => ?_⟩
      obtain rfl := List.mem_singleton.mp hcommit
      rfl

theorem moves_of_effect (h : Effect invocation request σ τ) {paymentId : String}
    {p : Payment} (hp : σ.payments.row paymentId = some p) :
    ∃ q, τ.payments.row paymentId = some q ∧ Moves p q := by
  cases h with
  | kept => exact ⟨p, hp, .refl p⟩
  | created _ hnew =>
      rw [row_created hnew]
      split
      · rename_i hid
        rw [hid, hnew] at hp
        cases hp
      · exact ⟨p, hp, .refl p⟩
  | updated hold hfilter hpermitted =>
      rw [row_updated hold]
      split
      · rename_i hid
        rw [hid, hold] at hp
        obtain rfl := Option.some.inj hp
        exact ⟨_, rfl, moves_of_permitted hpermitted hfilter⟩
      · exact ⟨p, hp, .refl p⟩

theorem fresh_of_effect (h : Effect invocation request σ τ) {paymentId : String}
    {q : Payment} (hσ : σ.payments.row paymentId = none)
    (hτ : τ.payments.row paymentId = some q) : Fresh q := by
  cases h with
  | kept =>
      rw [hσ] at hτ
      cases hτ
  | created hfresh hnew =>
      rw [row_created hnew] at hτ
      split at hτ
      · obtain rfl := Option.some.inj hτ
        exact hfresh
      · rw [hσ] at hτ
        cases hτ
  | updated hold =>
      rw [row_updated hold] at hτ
      split at hτ
      · rename_i hid
        rw [hid, hold] at hσ
        cases hσ
      · rw [hσ] at hτ
        cases hτ

theorem grows_of_effect (h : Effect invocation request σ τ) : Grows σ τ := by
  intro paymentId p hp
  obtain ⟨q, hq, hmoves⟩ := moves_of_effect h hp
  exact ⟨q, hq, hmoves.later⟩

theorem interference_of_effect {other : String} (hne : other ≠ invocation)
    (h : Effect invocation request σ τ) : Interference other σ τ where
  history := by
    obtain ⟨added, hτ, hadded⟩ := history_of_effect h
    refine ⟨added, hτ, fun commit hcommit hother => ?_⟩
    exact hne (hother.symm.trans (hadded commit hcommit))
  grows := grows_of_effect h

/-- The invocation has written nothing. -/
def Unused (invocation : String) (σ : Store) : Prop :=
  ∀ commit ∈ σ.history, commit.invocation ≠ invocation

theorem Unused.mono (h : Unused invocation σ) (hτ : Interference invocation σ τ) :
    Unused invocation τ := by
  obtain ⟨added, hhistory, hadded⟩ := hτ.history
  intro commit hcommit
  rw [hhistory] at hcommit
  rcases List.mem_append.mp hcommit with hold | hnew
  · exact h commit hold
  · exact hadded commit hnew

end Effects

/-- The store stays in order, and each call has one of the effects. -/
def rules : Pool.Rules act where
  inv := StoreOk
  rely := Interference
  guar := Effect
  ready := Unused
  rely_refl := Interference.refl
  rely_trans := fun _ _ _ _ => Interference.trans
  guar_refl := fun _ _ _ => .kept
  inv_of_guar := fun _ _ _ _ => storeOk_of_effect
  rely_of_guar := fun _ _ _ _ _ hne _ => interference_of_effect hne
  ready_of_rely := fun _ _ _ => Unused.mono

/-- An invocation has read this document. -/
structure Known (copy : Payment) (σ : Store) : Prop where
  ok : AggregateOk copy
  stored : ∃ p, σ.payments.row copy.id = some p ∧ Later copy p

theorem Known.mono {copy : Payment} {σ τ : Store} (h : Known copy σ)
    (hgrows : Grows σ τ) : Known copy τ where
  ok := h.ok
  stored := by
    obtain ⟨p, hp, hlater⟩ := h.stored
    obtain ⟨q, hq, hpq⟩ := hgrows copy.id p hp
    exact ⟨q, hq, hlater.trans hpq⟩

theorem Known.later {copy p : Payment} {σ : Store} (h : Known copy σ)
    (hrow : σ.payments.row copy.id = some p) : Later copy p := by
  obtain ⟨q, hq, hlater⟩ := h.stored
  obtain rfl := Option.some.inj (hq.symm.trans hrow)
  exact hlater

theorem known_of_row {σ : Store} {paymentId : String} {p : Payment}
    (hok : StoreOk σ) (hrow : σ.payments.row paymentId = some p) :
    Known p σ where
  ok := (hok.payment paymentId p hrow).1
  stored := ⟨p, (σ.payments.key_row paymentId p hrow).symm ▸ hrow, Later.refl p⟩

theorem known_of_find {σ : Store} {reference : String} {p : Payment}
    (hok : StoreOk σ) (hfind : findByReference σ.payments reference = some p) :
    Known p σ :=
  known_of_row hok
    ((σ.payments.mem_rows_iff p).mp (List.mem_of_find?_eq_some hfind))

theorem delivery_of_known {copy p : Payment} (hok : AggregateOk copy)
    (hlater : Later copy p) (hopen : isOpen p = true) :
    copy.deliveryStatus = .pending := by
  refine hok.delivery_pending fun hcompleted => ?_
  have hfinal := eq_of_final hlater.path (.inl hcompleted)
  exact ne_completed_of_isOpen hopen (hfinal.trans hcompleted)

theorem announces_of_later {copy p : Payment} (hlater : Later copy p)
    {status : PaymentStatus} {delivery : DeliveryStatus}
    {message : PendingMessage} (h : Announces copy status delivery message) :
    Announces p status delivery message := by
  obtain ⟨hkey, envelope, hbody, hid, hpayment, huser, hstatus⟩ := h
  refine ⟨hkey, envelope, hbody, ?_, ?_, ?_, hstatus⟩
  · rw [hid, hlater.same.id]
  · rw [hpayment, hlater.same.id]
  · rw [huser, hlater.same.userId]

theorem requestsDelivery_of_later {copy p : Payment} (hlater : Later copy p)
    {message : PendingMessage} (h : RequestsDelivery copy message) :
    RequestsDelivery p message := by
  obtain ⟨hkey, envelope, hbody, hpayment, huser⟩ := h
  exact ⟨hkey, envelope, hbody, hpayment.trans hlater.same.id.symm,
    huser.trans hlater.same.userId.symm⟩

theorem confirms_of_later {copy p : Payment} (hlater : Later copy p)
    {message : PendingMessage} (h : Confirms copy message) :
    Confirms p message := by
  obtain ⟨hkey, envelope, hbody, hpayment, huser⟩ := h
  exact ⟨hkey, envelope, hbody, hpayment.trans hlater.same.id.symm,
    huser.trans hlater.same.userId.symm⟩

theorem holds_of_reserved {invocation : String} {request : Request} {σ : Store}
    {p : Payment} {payments : Collection} {now : Int}
    (hunused : Unused invocation σ)
    (hfilter : (reserveUpdate now).filter p = true) :
    Holds (σ.record invocation request
      (some
        { before := some p
          after := (reserveUpdate now).apply p
          pushed := [] }, payments)) invocation p.id where
  reserved := by
    have hpending := congrArg some (of_decide_eq_true hfilter).1
    rw [commits_record_some, if_pos (Update.id_apply _ p)]
    exact ⟨_, List.mem_append_right _ (List.mem_singleton_self _), rfl, hpending, rfl⟩
  silent := by
    intro commit hcommit hown
    rcases List.mem_append.mp hcommit with hold | hnew
    · exact absurd hown (hunused commit hold)
    · rw [List.mem_singleton.mp hnew]

theorem holds_mono {invocation paymentId : String} {σ τ : Store}
    (h : Holds σ invocation paymentId) (hτ : Interference invocation σ τ) :
    Holds τ invocation paymentId := by
  obtain ⟨added, hhistory, hadded⟩ := hτ.history
  obtain ⟨commit, hcommit, hreserved⟩ := h.reserved
  refine ⟨⟨commit, ?_, hreserved⟩, fun other hother hauthor => ?_⟩
  · rw [commits, hhistory, List.filter_append]
    exact List.mem_append_left _ hcommit
  · rw [hhistory] at hother
    rcases List.mem_append.mp hother with hold | hnew
    · exact h.silent other hold hauthor
    · exact absurd hauthor (hadded other hnew)

end Modularis.Payments.Interleaving
