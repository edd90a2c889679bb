import Mathlib.Data.List.Forall2
import Modularis.Payments.Lossless

namespace Modularis.Payments.Batches

open Modularis.Foundation
open Modularis.Foundation.Program
open Modularis.Shared.Messaging
open Modularis.Payments.Models
open Modularis.Payments.Repository
open Modularis.Payments.Operations (Store)
open Modularis.Payments.Outbox
open Modularis.Payments.Claims
open Modularis.Payments.Publishing (row_of_target)
open Modularis.Payments.Lossless

/-- A payment and a position in its outbox. -/
abbrev Place := String × Nat

/-- The message in a place. -/
def messageAt (store : Store) (place : Place) : Option PendingMessage :=
  (box store place.1)[place.2]?

/-- The number of stored messages that are due and not claimed beyond `before`. -/
def claimableCount (before : Int) (store : Store) : Nat :=
  (store.payments.rows.flatMap Payment.pendingMessages).countP (claimable before)

/-- The payment without what a claim writes. -/
def apart (payment : Payment) : Payment :=
  { payment with
    pendingMessages := []
    updatedAt := 0 }

/-- The entry is the claim of the message in a place, which has it now. -/
structure ClaimedAt (before claimUntil : Int) (initial final : Store) (place : Place)
    (entry : PendingPublish) : Prop where
  paymentId : entry.paymentId = place.1
  claimed : ∃ message claimToken, messageAt initial place = some message ∧
    claimable before message = true ∧
    entry.message = claimMessage claimToken claimUntil message
  carried : messageAt final place = some entry.message

/-- The entries are the claims of messages in different places, as many as the limit
and what is due allow, and nothing else has changed. -/
structure Batch (before claimUntil : Int) (limit : Nat) (initial final : Store)
    (places : List Place) (entries : List PendingPublish) : Prop where
  length : entries.length = min limit (claimableCount before initial)
  distinct : places.Nodup
  entries : List.Forall₂ (ClaimedAt before claimUntil initial final) places entries
  others : ∀ place, place ∉ places → messageAt final place = messageAt initial place
  payments : ∀ paymentId, (∀ place ∈ places, place.1 ≠ paymentId) →
    final.payments.row paymentId = initial.payments.row paymentId
  rest : ∀ paymentId, (final.payments.row paymentId).map apart =
    (initial.payments.row paymentId).map apart

theorem claimable_stored_iff {before : Int} {message : PendingMessage}
    (h : PendingMessage.stored message = message) :
    claimable before message = true ↔ message.nextAttemptAt ≤ before ∧
      ∀ claimedUntil, message.claimedUntil = some claimedUntil →
        claimedUntil ≤ before := by
  have hdate : ∀ time, date time = time → (time ≤ date before ↔ time ≤ before) := by
    intro time htime
    unfold date at *
    omega
  have hnext : date message.nextAttemptAt = message.nextAttemptAt :=
    congrArg PendingMessage.nextAttemptAt h
  have huntil : message.claimedUntil.map date = message.claimedUntil :=
    congrArg PendingMessage.claimedUntil h
  rw [claimable, Bool.and_eq_true, decide_eq_true_eq, hdate _ hnext]
  cases hclaimed : message.claimedUntil with
  | none => simp
  | some claimedUntil =>
      rw [hclaimed, Option.map_some, Option.some.injEq] at huntil
      simp [hdate _ huntil]

section Claim

variable {before claimUntil : Int} {store mid final : Store} {state : State}

/-- The tokens that the loop draws are those of no message, nor of one another. -/
structure FreshTokens (store : Store) (choices : Nat → PublishChoice) : Prop where
  distinct : ∀ m n, (choices (2 * m)).newId = (choices (2 * n)).newId → m = n
  new : ∀ n paymentId, ∀ message ∈ box store paymentId,
    message.claimToken ≠ (choices (2 * n)).newId

theorem claimableCount_of_target {payments : Collection} {document : String}
    (h : target payments before document = none) (hstore : store.payments = payments) :
    claimableCount before store = 0 := by
  subst hstore
  rw [claimableCount, List.countP_eq_zero]
  intro message hmessage
  obtain ⟨payment, hpayment, hmem⟩ := List.mem_flatMap.mp hmessage
  have hnone := List.findSome?_eq_none_iff.mp (Option.or_eq_none_iff.mp h).2 payment
    hpayment
  intro hclaimable
  have hany : payment.pendingMessages.any (claimable before) = true :=
    List.any_eq_true.mpr ⟨message, hmem, hclaimable⟩
  simp [eligible?, hany] at hnone

theorem countP_claimed (hlease : date before < date claimUntil) (claimToken : String)
    {messages : List PendingMessage} (h : messages.any (claimable before) = true) :
    messages.countP (claimable before) =
      (updateFirst (claimable before) (claimMessage claimToken claimUntil)
        messages).countP (claimable before) + 1 := by
  obtain ⟨front, message, back, rfl, hmessage, _, hupdate⟩ :=
    updateFirst_split (claimMessage claimToken claimUntil) h
  rw [hupdate]
  simp [List.countP_append, hmessage, not_claimable_claimed hlease claimToken]
  omega

theorem claimableCount_claimed (hlease : date before < date claimUntil)
    {document : Eligible before}
    (hrow : state.store.payments.row document.payment.id = some document.payment)
    (claimToken : String) (now : Int) (log : Log) :
    claimableCount before state.store =
      claimableCount before (state.modify document.payment.id
        (claimPayment claimToken before claimUntil now)
        (id_claimPayment claimToken before claimUntil now) log).store + 1 := by
  obtain ⟨front, back, hrows⟩ := List.append_of_mem (Table.mem_rows_of_row hrow)
  have hnodup : (state.store.payments.rows.map Payment.id).Nodup :=
    state.store.payments.map_key_rows ▸ state.store.payments.nodup_keys
  rw [hrows, List.map_append, List.map_cons, List.nodup_middle, List.nodup_cons,
    ← List.map_append] at hnodup
  have hothers : ∀ payment ∈ front ++ back, payment.id ≠ document.payment.id :=
    fun payment hpayment hid => hnodup.1 (hid ▸ List.mem_map_of_mem hpayment)
  have hkept : ∀ payments : List Payment, payments ⊆ front ++ back →
      payments.map (fun payment => if payment.id = document.payment.id then
        claimPayment claimToken before claimUntil now payment else payment) =
          payments := by
    intro payments hpayments
    refine (List.map_congr_left fun payment hpayment => ?_).trans (List.map_id _)
    exact if_neg (hothers payment (hpayments hpayment))
  have hcount := countP_claimed hlease claimToken document.claimable
  have hrows' : (state.modify document.payment.id
      (claimPayment claimToken before claimUntil now)
      (id_claimPayment claimToken before claimUntil now) log).store.payments.rows =
        front ++ claimPayment claimToken before claimUntil now document.payment :: back := by
    rw [State.modify, Table.rows_modify, hrows, List.map_append, List.map_cons, if_pos rfl,
      hkept front (List.subset_append_left _ _), hkept back (List.subset_append_right _ _)]
  simp only [claimableCount, hrows, hrows', List.flatMap_append, List.flatMap_cons,
    List.countP_append, hcount, claimPayment]
  omega

theorem claimedAt_claim {document : Eligible before}
    (hrow : state.store.payments.row document.payment.id = some document.payment)
    {claimToken : String} (hnew : ∀ message ∈ box state.store document.payment.id,
      message.claimToken ≠ claimToken) (claimUntil now : Int) (log : Log) :
    ∃ index, ClaimedAt before claimUntil state.store
        (state.modify document.payment.id (claimPayment claimToken before claimUntil now)
          (id_claimPayment claimToken before claimUntil now) log).store
        (document.payment.id, index) (document.claim claimToken claimUntil now).publish ∧
      ∀ place, place ≠ (document.payment.id, index) →
        messageAt (state.modify document.payment.id
          (claimPayment claimToken before claimUntil now)
          (id_claimPayment claimToken before claimUntil now) log).store place =
            messageAt state.store place := by
  obtain ⟨ahead, message, behind, hbox, hclaimable, _, hupdate⟩ :=
    updateFirst_split (claimMessage claimToken claimUntil) document.claimable
  rw [← box_of_row hrow] at hbox
  have hpublish := publish_claim document now hupdate fun other hother =>
    hnew other (by simp [hbox, hother])
  have hbox' := box_claimed state document.payment.id claimToken before claimUntil now log
  have hself : box (state.modify document.payment.id
      (claimPayment claimToken before claimUntil now)
      (id_claimPayment claimToken before claimUntil now) log).store document.payment.id =
        ahead ++ claimMessage claimToken claimUntil message :: behind := by
    rw [hbox', if_pos rfl, box_of_row hrow, hupdate]
  refine ⟨ahead.length, ⟨?_, ⟨message, claimToken, ?_, hclaimable, ?_⟩, ?_⟩, ?_⟩
  · rw [hpublish]
  · simp [messageAt, hbox]
  · rw [hpublish]
  · simp [messageAt, hself, hpublish]
  · rintro ⟨paymentId, position⟩ hother
    by_cases hid : paymentId = document.payment.id
    · subst hid
      have hposition : position ≠ ahead.length := fun h => hother (by rw [h])
      simp only [messageAt, hself, hbox]
      rcases lt_or_gt_of_ne hposition with hlt | hgt
      · rw [List.getElem?_append_left hlt, List.getElem?_append_left hlt]
      · obtain ⟨offset, rfl⟩ := Nat.exists_eq_add_of_lt hgt
        simp [Nat.add_assoc, List.getElem?_append_right]
    · simp only [messageAt, hbox', if_neg hid]

theorem FreshTokens.claimed {choices : Nat → PublishChoice}
    (h : FreshTokens state.store choices) (paymentId : String) (before claimUntil now : Int)
    (log : Log) :
    FreshTokens (state.modify paymentId
        (claimPayment (choices 0).newId before claimUntil now)
        (id_claimPayment (choices 0).newId before claimUntil now) log).store
      (fun n => choices (n + 2)) where
  distinct := by
    intro m n hsame
    have hindex := h.distinct (m + 1) (n + 1) hsame
    omega
  new := by
    intro n other message hmem
    rw [box_claimed] at hmem
    split at hmem
    · rcases mem_of_mem_updateFirst hmem with hold | ⟨original, _, rfl⟩
      · exact h.new (n + 1) other message hold
      · intro hsame
        have hindex := h.distinct 0 (n + 1) hsame
        omega
    · exact h.new (n + 1) other message hmem

theorem Batch.nil {limit : Nat} (h : limit = 0 ∨ claimableCount before store = 0) :
    Batch before claimUntil limit store store [] [] where
  length := by
    rw [List.length_nil]
    omega
  distinct := List.nodup_nil
  entries := .nil
  others := fun _ _ => rfl
  payments := fun _ _ => rfl
  rest := fun _ => rfl

theorem Batch.cons {limit : Nat} {place : Place} {places : List Place}
    {entry : PendingPublish} {entries : List PendingPublish}
    (hlease : date before < date claimUntil)
    (hcount : claimableCount before store = claimableCount before mid + 1)
    (hentry : ClaimedAt before claimUntil store mid place entry)
    (hothers : ∀ other, other ≠ place → messageAt mid other = messageAt store other)
    (hpayments : ∀ paymentId, place.1 ≠ paymentId →
      mid.payments.row paymentId = store.payments.row paymentId)
    (hrest : ∀ paymentId, (mid.payments.row paymentId).map apart =
      (store.payments.row paymentId).map apart)
    (h : Batch before claimUntil limit mid final places entries) :
    Batch before claimUntil (limit + 1) store final (place :: places) (entry :: entries) := by
  have hnew : place ∉ places := by
    intro hmem
    obtain ⟨index, hindex, rfl⟩ := List.getElem_of_mem hmem
    have hlength := h.entries.length_eq
    obtain ⟨message, _, hat, hclaimable, _⟩ :=
      (h.entries.get hindex (hlength ▸ hindex)).claimed
    obtain ⟨_, _, _, _, hmessage⟩ := hentry.claimed
    obtain rfl := Option.some.inj (hentry.carried.symm.trans hat)
    rw [hmessage, not_claimable_claimed hlease] at hclaimable
    cases hclaimable
  refine ⟨?_, List.nodup_cons.mpr ⟨hnew, h.distinct⟩, .cons ?_ ?_, ?_, ?_, ?_⟩
  · rw [List.length_cons, h.length, hcount]
    omega
  · exact ⟨hentry.paymentId, hentry.claimed, (h.others place hnew).trans hentry.carried⟩
  · have hne : ∀ other ∈ places, other ≠ place := by
      rintro other hother rfl
      exact hnew hother
    refine ((List.forall₂_and_left _ _).mpr ⟨hne, h.entries⟩).imp ?_
    rintro other entry ⟨hother, hclaimed⟩
    obtain ⟨message, claimToken, hat, hmessage⟩ := hclaimed.claimed
    rw [hothers other hother] at hat
    exact ⟨hclaimed.paymentId, ⟨message, claimToken, hat, hmessage⟩, hclaimed.carried⟩
  · intro other hother
    obtain ⟨hne, hmem⟩ := not_or.mp fun h => hother (List.mem_cons.mpr h)
    exact (h.others other hmem).trans (hothers other hne)
  · intro paymentId hnone
    obtain ⟨hplace, hplaces⟩ := List.forall_mem_cons.mp hnone
    exact (h.payments paymentId hplaces).trans (hpayments paymentId hplace)
  · intro paymentId
    exact (h.rest paymentId).trans (hrest paymentId)

theorem run_claimFrom_batch (hlease : date before < date claimUntil) (run : String)
    (remaining : Nat) {choices : Nat → PublishChoice}
    (hsucceeds : ∀ n, (choices n).failure = none)
    (hfresh : FreshTokens state.store choices) (result : List PendingPublish) :
    ∃ places entries final,
      (claimFrom before claimUntil result remaining).run (publishAct run ()) choices state =
        (.ok (result ++ entries), final) ∧
      Batch before claimUntil remaining state.store final.store places entries := by
  induction remaining generalizing result choices state with
  | zero => exact ⟨[], [], state, by rw [List.append_nil]; rfl, .nil (.inl rfl)⟩
  | succ remaining ih =>
      cases htarget : target state.store.payments before (choices 1).document with
      | none =>
          have hcount := claimableCount_of_target htarget rfl
          refine ⟨[], [], state, ?_, .nil (.inr hcount)⟩
          rw [List.append_nil]
          exact run_claimFrom_of_none run claimUntil result remaining (hsucceeds 1) htarget
      | some document =>
          have hrow := row_of_target htarget
          obtain ⟨log, hrun⟩ := leads_claim run claimUntil result remaining
            (hsucceeds 1) htarget
          obtain ⟨index, hentry, hothers⟩ := claimedAt_claim hrow
            (fun message hmem => hfresh.new 0 document.payment.id message hmem)
            claimUntil (choices 1).now log
          obtain ⟨places, entries, final, hrest, hbatch⟩ := ih
            (fun n => hsucceeds (n + 2))
            (hfresh.claimed document.payment.id before claimUntil (choices 1).now log)
            (result ++ [(document.claim (choices 0).newId claimUntil
              (choices 1).now).publish])
          rw [hrun, hrest]
          refine ⟨_, _, final, ?_, .cons hlease (claimableCount_claimed hlease hrow
            (choices 0).newId (choices 1).now log) hentry hothers ?_ ?_ hbatch⟩
          · rw [List.append_assoc, List.singleton_append]
          · intro paymentId hne
            rw [State.modify, Table.row_modify, if_neg (Ne.symm hne)]
          · intro paymentId
            rw [State.modify, Table.row_modify]
            split
            · rw [Option.map_map]
              rfl
            · rfl

end Claim

/-- `ClaimPendingPublishes`, alone, with a lease that ends in a later millisecond. -/
theorem claims_are_exact {state : State} {before claimUntil : Int}
    (hlease : date before < date claimUntil) (run : String) (limit : Nat)
    {choices : Nat → PublishChoice} (hsucceeds : ∀ n, (choices n).failure = none)
    (hfresh : FreshTokens state.store choices) :
    ∃ places entries final,
      (claimPendingPublishes before claimUntil limit).run (publishAct run ()) choices state =
        (.ok entries, final) ∧
      Batch before claimUntil limit state.store final.store places entries :=
  run_claimFrom_batch hlease run limit hsucceeds hfresh []

section Sample

/-- A message that is due at one time and claimed until another. -/
def sampleMessage (id : String) (nextAttemptAt : Int) (claimedUntil : Option Int) :
    PendingMessage where
  id := id
  exchange := "events"
  routingKey := "payment.process.requested"
  body := .processRequested (newEnvelopeWithMetadata "payment.process.requested" "ppd-1"
    "c-1" "" "" "payment-service"
    { paymentId := "payment-1"
      paymentReference := "ref-1" })
  attempts := 0
  nextAttemptAt := nextAttemptAt
  claimToken := ""
  claimedUntil := claimedUntil

/-- A pending payment of the sample. -/
def samplePayment : Payment where
  id := "payment-1"
  idempotencyKey := "key-1"
  requestHash := "hash-1"
  userId := "user-1"
  customerName := "Ada"
  customerEmail := "ada@modularis.dev"
  customerCellphone := ""
  customerTaxId := ""
  paymentReference := "ref-1"
  amount := 100
  currency := "BRL"
  paymentStatus := .pending
  deliveryStatus := .pending
  processingAttempts := 0
  expiresAt := 1800000000000
  processingStartedAt := none
  confirmedAt := none
  paymentFailureReason := ""
  deliveryFailureReason := ""
  webhookEventIds := []
  pendingMessages := [sampleMessage "message-1" 0 none]
  createdAt := 0
  updatedAt := 0

/-- One payment with a message that is due. -/
def sampleState : State where
  store :=
    { payments := Table.empty.insertIfAbsent samplePayment
      history := [] }
  log := .empty

/-- Each call draws a longer token. -/
def sampleChoices (n : Nat) : PublishChoice where
  now := 0
  newId := String.ofList (List.replicate (n + 1) 'a')
  document := ""
  failure := none
  applied := true

/-- Two payments.  Of the first a message waits for a later attempt; of the second one is
claimed still, and the claim of another is over. -/
def sampleQueue : State where
  store :=
    { payments :=
        (Table.empty.insertIfAbsent
          { samplePayment with
            pendingMessages := [sampleMessage "message-1" 0 none,
              sampleMessage "message-2" 60000000000 none] }).insertIfAbsent
          { samplePayment with
            id := "payment-2"
            idempotencyKey := "key-2"
            paymentReference := "ref-2"
            pendingMessages := [sampleMessage "message-3" 0 (some 30000000000),
              sampleMessage "message-4" 0 (some 0), sampleMessage "message-5" 0 none] }
      history := [] }
  log := .empty

theorem eq_of_token_eq {letter : Char} {m n : Nat}
    (h : String.ofList (List.replicate (m + 1) letter) =
      String.ofList (List.replicate (n + 1) letter)) : m = n := by
  have hlength := congrArg (fun token => token.toList.length) h
  simp only [String.toList_ofList, List.length_replicate] at hlength
  omega

theorem token_ne_empty (letter : Char) (n : Nat) :
    String.ofList (List.replicate (n + 1) letter) ≠ "" := by
  intro h
  have hlength := congrArg (fun token => token.toList.length) h
  simp at hlength

theorem freshTokens_of_blank {store : Store}
    (h : ∀ payment ∈ store.payments.rows, ∀ message ∈ payment.pendingMessages,
      message.claimToken = "") : FreshTokens store sampleChoices where
  distinct := by
    intro m n hsame
    have hindex := eq_of_token_eq hsame
    omega
  new := by
    intro n paymentId message hmem htoken
    have hblank : message.claimToken = "" := by
      cases hrow : store.payments.row paymentId with
      | none =>
          rw [box, hrow] at hmem
          cases hmem
      | some payment =>
          rw [box_of_row hrow] at hmem
          exact h payment (Table.mem_rows_of_row hrow) message hmem
    exact token_ne_empty 'a' (2 * n) (htoken.symm.trans hblank)

theorem freshTokens_sample : FreshTokens sampleState.store sampleChoices :=
  freshTokens_of_blank (by decide)

theorem claims_are_exact_sample : claimableCount 0 sampleQueue.store = 3 ∧
    ∃ places entries final,
      (claimPendingPublishes 0 pendingPublishLease 2).run (publishAct "run-1" ())
          sampleChoices sampleQueue = (.ok entries, final) ∧
        Batch 0 pendingPublishLease 2 sampleQueue.store final.store places entries :=
  ⟨rfl, claims_are_exact (by decide) "run-1" 2 (fun _ => rfl)
    (freshTokens_of_blank (by decide))⟩

/-- A claim that ends within the millisecond is over at once: the message is claimed
again and again. -/
theorem claims_repeat : (0 : Int) < 1 ∧ FreshTokens sampleState.store sampleChoices ∧
    ¬ ∃ places entries final,
      (claimPendingPublishes 0 1 2).run (publishAct "run-1" ()) sampleChoices
        sampleState = (.ok entries, final) ∧
      Batch 0 1 2 sampleState.store final.store places entries := by
  refine ⟨by decide, freshTokens_sample, ?_⟩
  rintro ⟨places, entries, final, hrun, hbatch⟩
  have hentries : ((claimPendingPublishes 0 1 2).run (publishAct "run-1" ())
      sampleChoices sampleState).1.toOption.map List.length = some 2 := rfl
  have hcount : claimableCount 0 sampleState.store = 1 := rfl
  rw [hrun] at hentries
  have hlength := hbatch.length
  rw [Option.some.inj hentries, hcount] at hlength
  revert hlength
  decide

end Sample

end Modularis.Payments.Batches
