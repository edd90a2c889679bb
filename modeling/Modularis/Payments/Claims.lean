import Modularis.Payments.Changes
import Modularis.Payments.Outbox

namespace Modularis.Payments.Claims

open Modularis.Foundation
open Modularis.Payments.Models
open Modularis.Payments.Repository
open Modularis.Payments.Operations (Request Store Choice Op Commit)
open Modularis.Payments.Effects
open Modularis.Payments.Ledger
open Modularis.Payments.Changes
open Modularis.Payments.Outbox

/-- What a message says, whoever claims it. -/
structure Letter where
  id : String
  exchange : String
  routingKey : String
  body : Body
deriving DecidableEq, Repr

/-- A message without what claims and retries write. -/
def letter (message : PendingMessage) : Letter where
  id := message.id
  exchange := message.exchange
  routingKey := message.routingKey
  body := message.body

/-- The messages pending for a payment. -/
def box (store : Store) (paymentId : String) : List PendingMessage :=
  ((store.payments.row paymentId).map Payment.pendingMessages).getD []

/-- The outbox of a payment, without what claims and retries write. -/
def letters (store : Store) (paymentId : String) : List Letter :=
  (box store paymentId).map letter

/-- The letters ever handed to the outbox of a payment. -/
def handedOver (store : Store) (paymentId : String) : List Letter :=
  (enqueued store paymentId).map letter

/-- A later reading of a clock, by a run that claimed, found the claim expired. -/
def Lapsed (log : Log) (claim : Claim) : Prop :=
  ∃ other ∈ log.claims, claim.claimedUntil ≤ other.before

/-- A call of `Publish` with this letter returned nil. -/
def Published (log : Log) (said : Letter) : Prop :=
  ∃ publication ∈ log.publications, publication.accepted = true ∧
    publication.exchange = said.exchange ∧
    publication.routingKey = said.routingKey ∧ publication.body = said.body

/-- The claims and the outbox. -/
structure Sound (store : Store) (log : Log) : Prop where
  listed : ∀ paymentId,
    (letters store paymentId).Sublist (handedOver store paymentId)
  unique : ∀ paymentId, ((handedOver store paymentId).map Letter.id).Nodup
  kept : ∀ paymentId, ∀ said ∈ handedOver store paymentId,
    said ∈ letters store paymentId ∨ Published log said
  tokens : (log.claims.map Claim.token).Nodup
  drawn : ∀ claim ∈ log.claims, claim.token ≠ ""
  origin : ∀ claim ∈ log.claims,
    letter claim.publish.message ∈ handedOver store claim.publish.paymentId
  current : ∀ claim ∈ log.claims, (claim.run, claim.token) ∉ log.givenBack →
    Lapsed log claim ∨ ∃ message ∈ box store claim.publish.paymentId,
      message.id = claim.publish.message.id ∧ message.claimToken = claim.token ∧
        message.claimedUntil = some claim.claimedUntil
  latest : ∀ paymentId, ∀ message ∈ box store paymentId, ∀ claim ∈ log.claims,
    claim.on paymentId message.id = true → message.claimToken = claim.token →
    (log.claims.filter (Claim.on paymentId message.id)).getLast? = some claim

section Sound

variable {store : Store} {log : Log}

theorem box_of_row {paymentId : String} {payment : Payment}
    (h : store.payments.row paymentId = some payment) :
    box store paymentId = payment.pendingMessages := by
  simp [box, h]

theorem Sound.ids (h : Sound store log) (paymentId : String) :
    ((box store paymentId).map PendingMessage.id).Nodup := by
  have hids := ((h.listed paymentId).map Letter.id).nodup (h.unique paymentId)
  rwa [letters, List.map_map] at hids

theorem Sound.eq_of_id (h : Sound store log) {paymentId : String}
    {message other : PendingMessage} (hmessage : message ∈ box store paymentId)
    (hother : other ∈ box store paymentId) (hid : message.id = other.id) :
    message = other :=
  List.inj_on_of_nodup_map (h.ids paymentId) hmessage hother hid

theorem Sound.letter_eq (h : Sound store log) {claim : Claim}
    (hclaim : claim ∈ log.claims) {message : PendingMessage}
    (hmessage : message ∈ box store claim.publish.paymentId)
    (hid : message.id = claim.publish.message.id) :
    letter message = letter claim.publish.message := by
  refine List.inj_on_of_nodup_map (h.unique claim.publish.paymentId) ?_
    (h.origin claim hclaim) hid
  exact (h.listed _).subset (List.mem_map_of_mem hmessage)

theorem Sound.eq_of_token (h : Sound store log) {claim other : Claim}
    (hclaim : claim ∈ log.claims) (hother : other ∈ log.claims)
    (htoken : claim.token = other.token) : claim = other :=
  List.inj_on_of_nodup_map h.tokens hclaim hother htoken

end Sound

section Calls

variable {state : State} {log : Log}

theorem box_modify (state : State) (paymentId : String) (f : Payment → Payment)
    (hf : ∀ payment, (f payment).id = payment.id) (log : Log)
    (g : List PendingMessage → List PendingMessage)
    (hg : ∀ payment, (f payment).pendingMessages = g payment.pendingMessages)
    (hnil : g [] = []) (other : String) :
    box (state.modify paymentId f hf log).store other =
      if other = paymentId then g (box state.store other)
      else box state.store other := by
  simp only [box, State.modify, Table.row_modify]
  split
  · cases state.store.payments.row other with
    | none => simp [hnil]
    | some payment => simp [hg]
  · rfl

theorem letters_map {store store' : Store} {paymentId : String}
    {f : PendingMessage → PendingMessage} (hf : ∀ message, letter (f message) = letter message)
    (hbox : ∀ other, box store' other =
      if other = paymentId then (box store other).map f else box store other)
    (other : String) : letters store' other = letters store other := by
  simp only [letters, hbox]
  split
  · rw [List.map_map]
    exact List.map_congr_left fun message _ => hf message
  · rfl

theorem Sound.published {store : Store} (h : Sound store log)
    (publication : Publication) :
    Sound store { log with publications := log.publications ++ [publication] } where
  listed := h.listed
  unique := h.unique
  kept := by
    intro paymentId said hsaid
    refine (h.kept paymentId said hsaid).imp_right ?_
    rintro ⟨other, hother, hpublished⟩
    exact ⟨other, List.mem_append_left _ hother, hpublished⟩
  tokens := h.tokens
  drawn := h.drawn
  origin := h.origin
  current := h.current
  latest := h.latest

/-- The run of a claim gives it back: messages without its token stay, and what
else is in the outbox has no token. -/
structure GivesBack (claim : Claim) (log : Log) (store store' : Store) : Prop where
  history : ∀ paymentId, handedOver store' paymentId = handedOver store paymentId
  sublist : ∀ paymentId, (letters store' paymentId).Sublist (letters store paymentId)
  lost : ∀ paymentId, ∀ said ∈ letters store paymentId,
    said ∈ letters store' paymentId ∨ Published log said
  others : ∀ paymentId, ∀ message ∈ box store paymentId,
    ¬ (paymentId = claim.publish.paymentId ∧
      matchesClaim claim.publish.message.id claim.token message = true) →
    message ∈ box store' paymentId
  free : ∀ paymentId, ∀ message ∈ box store' paymentId,
    message ∈ box store paymentId ∨ message.claimToken = ""

theorem Sound.givenBack {store store' : Store} (h : Sound store log) {claim : Claim}
    (hclaim : claim ∈ log.claims) (hback : GivesBack claim log store store') :
    Sound store' { log with givenBack := log.givenBack ++ [(claim.run, claim.token)] } where
  listed := by
    intro paymentId
    rw [hback.history]
    exact (hback.sublist paymentId).trans (h.listed paymentId)
  unique := by
    intro paymentId
    rw [hback.history]
    exact h.unique paymentId
  kept := by
    intro paymentId said hsaid
    rw [hback.history] at hsaid
    rcases h.kept paymentId said hsaid with hmem | hpublished
    · exact hback.lost paymentId said hmem
    · exact .inr hpublished
  tokens := h.tokens
  drawn := h.drawn
  origin := by
    intro other hother
    rw [hback.history]
    exact h.origin other hother
  current := by
    intro other hother hheld
    rw [List.mem_append, List.mem_singleton, not_or] at hheld
    rcases h.current other hother hheld.1 with hlapsed | ⟨message, hmem, hid, htoken, huntil⟩
    · exact .inl hlapsed
    · refine .inr ⟨message, hback.others _ message hmem ?_, hid, htoken, huntil⟩
      rintro ⟨_, hmatches⟩
      obtain ⟨_, hsame⟩ := of_decide_eq_true hmatches
      obtain rfl := h.eq_of_token hother hclaim (htoken.symm.trans hsame)
      exact hheld.2 rfl
  latest := by
    intro paymentId message hmem other hother hon htoken
    rcases hback.free paymentId message hmem with hold | hfree
    · exact h.latest paymentId message hold other hother hon htoken
    · exact absurd (htoken.symm.trans hfree) (h.drawn other hother)

theorem letters_updateFirst {wanted : PendingMessage → Bool}
    {f : PendingMessage → PendingMessage} (hf : ∀ message, letter (f message) = letter message)
    (messages : List PendingMessage) :
    (updateFirst wanted f messages).map letter = messages.map letter := by
  induction messages with
  | nil => rfl
  | cons message messages ih =>
      by_cases hwanted : wanted message = true
      · simp [updateFirst, hwanted, hf]
      · simp [updateFirst, hwanted, ih]

theorem box_retried (state : State) (paymentId messageId claimToken : String)
    (nextAttemptAt : Int) (attempts : Nat) (now : Int) (log : Log) (other : String) :
    box (state.modify paymentId
      (retryPayment messageId claimToken nextAttemptAt attempts now)
      (id_retryPayment messageId claimToken nextAttemptAt attempts now)
      log).store other =
      if other = paymentId then
        (box state.store other).map fun message =>
          if matchesClaim messageId claimToken message then
            rescheduleMessage nextAttemptAt attempts message
          else message
      else box state.store other :=
  box_modify state paymentId _ _ log (List.map _) (fun _ => rfl) rfl other

theorem box_acknowledged (state : State) (paymentId messageId claimToken : String)
    (now : Int) (log : Log) (other : String) :
    box (state.modify paymentId (acknowledgePayment messageId claimToken now)
      (id_acknowledgePayment messageId claimToken now) log).store other =
      if other = paymentId then
        (box state.store other).filter fun message =>
          !matchesClaim messageId claimToken message
      else box state.store other :=
  box_modify state paymentId _ _ log (List.filter _) (fun _ => rfl) rfl other

theorem box_claimed (state : State) (paymentId claimToken : String)
    (before claimUntil now : Int) (log : Log) (other : String) :
    box (state.modify paymentId (claimPayment claimToken before claimUntil now)
      (id_claimPayment claimToken before claimUntil now) log).store other =
      if other = paymentId then
        updateFirst (claimable before) (claimMessage claimToken claimUntil)
          (box state.store other)
      else box state.store other :=
  box_modify state paymentId _ _ log (updateFirst _ _) (fun _ => rfl) rfl other

theorem letters_retried (state : State) (paymentId messageId claimToken : String)
    (nextAttemptAt : Int) (attempts : Nat) (now : Int) (log : Log) (other : String) :
    letters (state.modify paymentId
      (retryPayment messageId claimToken nextAttemptAt attempts now)
      (id_retryPayment messageId claimToken nextAttemptAt attempts now)
      log).store other = letters state.store other := by
  refine letters_map (fun message => ?_) (box_retried state paymentId messageId
    claimToken nextAttemptAt attempts now log) other
  split <;> rfl

theorem letters_claimed (state : State) (paymentId claimToken : String)
    (before claimUntil now : Int) (log : Log) (other : String) :
    letters (state.modify paymentId (claimPayment claimToken before claimUntil now)
      (id_claimPayment claimToken before claimUntil now) log).store other =
        letters state.store other := by
  rw [letters, box_claimed, letters]
  split
  · refine letters_updateFirst (fun message => ?_) (box state.store other)
    rfl
  · rfl

theorem givesBack_retried (state : State) (claim : Claim) (log log' : Log) (nextAttemptAt : Int)
    (attempts : Nat) (now : Int) :
    GivesBack claim log state.store (state.modify claim.publish.paymentId
      (retryPayment claim.publish.message.id claim.token nextAttemptAt attempts now)
      (id_retryPayment claim.publish.message.id claim.token nextAttemptAt attempts now)
      log').store := by
  have hbox := box_retried state claim.publish.paymentId claim.publish.message.id
    claim.token nextAttemptAt attempts now log'
  have hletters := letters_retried state claim.publish.paymentId
    claim.publish.message.id claim.token nextAttemptAt attempts now log'
  constructor
  · exact fun _ => rfl
  · exact fun paymentId => by rw [hletters]
  · intro paymentId said hsaid
    rw [hletters]
    exact .inl hsaid
  · intro paymentId message hmem hother
    rw [hbox]
    split
    · rename_i hid
      refine List.mem_map.mpr ⟨message, hmem, if_neg fun hmatches => ?_⟩
      exact hother ⟨hid, hmatches⟩
    · exact hmem
  · intro paymentId message hmem
    rw [hbox] at hmem
    split at hmem
    · obtain ⟨old, hold, rfl⟩ := List.mem_map.mp hmem
      split
      · exact .inr rfl
      · exact .inl hold
    · exact .inl hmem

theorem givesBack_acknowledged {claim : Claim} {log : Log} (log' : Log)
    (h : Sound state.store log) (hclaim : claim ∈ log.claims)
    (hpublished : Published log (letter claim.publish.message)) (now : Int) :
    GivesBack claim log state.store (state.modify claim.publish.paymentId
      (acknowledgePayment claim.publish.message.id claim.token now)
      (id_acknowledgePayment claim.publish.message.id claim.token now)
      log').store := by
  have hbox := box_acknowledged state claim.publish.paymentId
    claim.publish.message.id claim.token now log'
  constructor
  · exact fun _ => rfl
  · intro paymentId
    simp only [letters, hbox]
    split
    · exact List.filter_sublist.map letter
    · exact .refl _
  · intro paymentId said hsaid
    obtain ⟨message, hmem, rfl⟩ := List.mem_map.mp hsaid
    simp only [letters, hbox]
    split
    · rename_i hid
      subst hid
      by_cases hmatches : matchesClaim claim.publish.message.id claim.token message = true
      · obtain ⟨hid, _⟩ := of_decide_eq_true hmatches
        rw [h.letter_eq hclaim hmem hid]
        exact .inr hpublished
      · refine .inl (List.mem_map_of_mem (List.mem_filter.mpr ⟨hmem, ?_⟩))
        simpa using hmatches
    · exact .inl hsaid
  · intro paymentId message hmem hother
    rw [hbox]
    split
    · rename_i hid
      refine List.mem_filter.mpr ⟨hmem, ?_⟩
      simpa [hid] using hother
    · exact hmem
  · intro paymentId message hmem
    rw [hbox] at hmem
    split at hmem
    · exact .inl (List.mem_filter.mp hmem).1
    · exact .inl hmem

/-- No claim and no message has the token. -/
structure FreshToken (store : Store) (log : Log) (claimToken : String) : Prop where
  drawn : claimToken ≠ ""
  claims : ∀ claim ∈ log.claims, claim.token ≠ claimToken
  messages : ∀ paymentId, ∀ message ∈ box store paymentId,
    message.claimToken ≠ claimToken

/-- The claim takes a claimable message. -/
structure Takes (claim : Claim) (log : Log) (store store' : Store) : Prop where
  history : ∀ paymentId, handedOver store' paymentId = handedOver store paymentId
  letters : ∀ paymentId, letters store' paymentId = letters store paymentId
  fresh : FreshToken store log claim.token
  taken : ∃ message ∈ box store claim.publish.paymentId,
    letter message = letter claim.publish.message ∧
      claimable claim.before message = true
  leased : claim.publish.message.claimedUntil = some claim.claimedUntil
  message : claim.publish.message ∈ box store' claim.publish.paymentId
  others : ∀ paymentId, ∀ message ∈ box store paymentId,
    claim.on paymentId message.id = false → message ∈ box store' paymentId
  back : ∀ paymentId, ∀ message ∈ box store' paymentId,
    message ∈ box store paymentId ∧ claim.on paymentId message.id = false ∨
      paymentId = claim.publish.paymentId ∧ message = claim.publish.message

theorem date_le (time : Int) : date time ≤ time := by
  unfold date
  omega

theorem le_of_claimable {before : Int} {message : PendingMessage}
    (h : claimable before message = true) {claimedUntil : Int}
    (huntil : message.claimedUntil = some claimedUntil) : claimedUntil ≤ before := by
  simp only [claimable, huntil, Bool.and_eq_true, decide_eq_true_eq] at h
  exact h.2.trans (date_le before)

theorem Lapsed.mono {log log' : Log} {claim : Claim} (h : Lapsed log claim)
    (hclaims : ∀ other ∈ log.claims, other ∈ log'.claims) : Lapsed log' claim := by
  obtain ⟨other, hother, hle⟩ := h
  exact ⟨other, hclaims other hother, hle⟩

theorem Sound.claimed {store store' : Store} (h : Sound store log) {claim : Claim}
    (htakes : Takes claim log store store') :
    Sound store' { log with claims := log.claims ++ [claim] } where
  listed := by
    intro paymentId
    rw [htakes.history, htakes.letters]
    exact h.listed paymentId
  unique := by
    intro paymentId
    rw [htakes.history]
    exact h.unique paymentId
  kept := by
    intro paymentId said
    rw [htakes.history, htakes.letters]
    exact h.kept paymentId said
  tokens := by
    rw [List.map_append, List.map_singleton, ← List.concat_eq_append]
    refine h.tokens.concat fun hmem => ?_
    obtain ⟨other, hother, hsame⟩ := List.mem_map.mp hmem
    exact htakes.fresh.claims other hother hsame
  drawn := by
    simp only [List.mem_append, List.mem_singleton]
    rintro other (hother | rfl)
    · exact h.drawn other hother
    · exact htakes.fresh.drawn
  origin := by
    simp only [List.mem_append, List.mem_singleton]
    rintro other (hother | rfl)
    · rw [htakes.history]
      exact h.origin other hother
    · obtain ⟨message, hmem, hletter, _⟩ := htakes.taken
      rw [htakes.history, ← hletter]
      exact (h.listed _).subset (List.mem_map_of_mem hmem)
  current := by
    simp only [List.mem_append, List.mem_singleton]
    rintro other (hother | rfl) hheld
    · rcases h.current other hother hheld with hlapsed | ⟨message, hmem, hid, htoken, huntil⟩
      · exact .inl (hlapsed.mono fun _ hmem => List.mem_append_left _ hmem)
      · cases hon : claim.on other.publish.paymentId message.id with
        | false =>
            exact .inr ⟨message, htakes.others _ message hmem hon, hid, htoken, huntil⟩
        | true =>
            obtain ⟨hpayment, hmessage⟩ := of_decide_eq_true hon
            obtain ⟨taken, htaken, hletter, hclaimable⟩ := htakes.taken
            rw [hpayment] at htaken
            have hsame : taken.id = message.id :=
              (congrArg Letter.id hletter).trans hmessage
            obtain rfl := h.eq_of_id htaken hmem hsame
            exact .inl ⟨claim, List.mem_append_right _ (List.mem_singleton_self _),
              le_of_claimable hclaimable huntil⟩
    · exact .inr ⟨_, htakes.message, rfl, rfl, htakes.leased⟩
  latest := by
    intro paymentId message hmem other hother hon htoken
    rw [List.filter_append]
    rw [List.mem_append, List.mem_singleton] at hother
    rcases htakes.back paymentId message hmem with ⟨hold, hnot⟩ | ⟨rfl, rfl⟩
    · rcases hother with hother | rfl
      · rw [List.filter_cons_of_neg (by simp [hnot]), List.filter_nil, List.append_nil]
        exact h.latest paymentId message hold other hother hon htoken
      · exact absurd htoken (htakes.fresh.messages paymentId message hold)
    · rcases hother with hother | rfl
      · exact absurd htoken.symm (htakes.fresh.claims other hother)
      · rw [List.filter_cons_of_pos hon, List.getLast?_append]
        rfl

theorem publish_claim {before : Int} (document : Eligible before) (now : Int)
    {claimUntil : Int} {claimToken : String} {message : PendingMessage}
    {ahead behind : List PendingMessage}
    (hupdate : updateFirst (claimable before) (claimMessage claimToken claimUntil)
      document.payment.pendingMessages =
        ahead ++ claimMessage claimToken claimUntil message :: behind)
    (hahead : ∀ other ∈ ahead, other.claimToken ≠ claimToken) :
    (document.claim claimToken claimUntil now).publish =
      { paymentId := document.payment.id
        message := claimMessage claimToken claimUntil message } := by
  have hfind : (document.claim claimToken claimUntil
      now).paymentRecord.pendingMessages.find?
        (fun other => decide (other.claimToken = claimToken)) =
      some (claimMessage claimToken claimUntil message) := by
    rw [List.find?_eq_some_iff_append]
    refine ⟨decide_eq_true rfl, ahead, behind, hupdate, fun other hother => ?_⟩
    simpa using hahead other hother
  simp only [Claimed.publish, hfind, Option.get_some]
  rfl

theorem takes_claimed {state : State} (h : Sound state.store state.log)
    {before : Int} {document : Eligible before}
    (hrow : state.store.payments.row document.payment.id = some document.payment)
    {claimToken : String} (hfresh : FreshToken state.store state.log claimToken)
    (run : String) (claimUntil now : Int) (log' : Log) :
    Takes
      { run := run
        publish := (document.claim claimToken claimUntil now).publish
        claimedUntil := date claimUntil
        before := before } state.log state.store
      (state.modify document.payment.id
        (claimPayment claimToken before claimUntil now)
        (id_claimPayment claimToken before claimUntil now) log').store := by
  obtain ⟨ahead, message, behind, hbox, hclaimable, hahead, hupdate⟩ :=
    updateFirst_split (claimMessage claimToken claimUntil) document.claimable
  rw [← box_of_row hrow] at hbox
  have hmem : message ∈ box state.store document.payment.id := by simp [hbox]
  have hpublish := publish_claim document now hupdate fun other hother =>
    hfresh.messages document.payment.id other (by simp [hbox, hother])
  have hbox' := box_claimed state document.payment.id claimToken before claimUntil now
    log'
  have hids : ∀ other ∈ ahead ++ behind, other.id ≠ message.id := by
    have hnodup := h.ids document.payment.id
    rw [hbox, List.map_append, List.map_cons, List.nodup_middle, List.nodup_cons,
      ← List.map_append] at hnodup
    exact fun other hother hid => hnodup.1 (hid ▸ List.mem_map_of_mem hother)
  have hself : box (state.modify document.payment.id
      (claimPayment claimToken before claimUntil now)
      (id_claimPayment claimToken before claimUntil now) log').store
      document.payment.id =
        ahead ++ claimMessage claimToken claimUntil message :: behind := by
    rw [hbox', if_pos rfl, box_of_row hrow, hupdate]
  simp only [hpublish]
  constructor
  · exact fun _ => rfl
  · exact letters_claimed state document.payment.id claimToken before claimUntil now
      log'
  · exact hfresh
  · exact ⟨message, hmem, rfl, hclaimable⟩
  · rfl
  · rw [hself]
    exact List.mem_append_right _ List.mem_cons_self
  · intro paymentId other hother hnot
    by_cases hid : paymentId = document.payment.id
    · subst hid
      rw [hself]
      rw [hbox] at hother
      have hne : other ≠ message := by
        rintro rfl
        simp [Claim.on, claimMessage] at hnot
      simp only [List.mem_append, List.mem_cons] at hother ⊢
      rcases hother with hahead | heq | hbehind
      · exact .inl hahead
      · exact absurd heq hne
      · exact .inr (.inr hbehind)
    · rw [hbox', if_neg hid]
      exact hother
  · intro paymentId other hother
    by_cases hid : paymentId = document.payment.id
    · subst hid
      rw [hself] at hother
      have hstays : ∀ x ∈ ahead ++ behind, x ∈ box state.store document.payment.id ∧
          Claim.on document.payment.id x.id
            { run := run
              publish :=
                { paymentId := document.payment.id
                  message := claimMessage claimToken claimUntil message }
              claimedUntil := date claimUntil
              before := before } = false := by
        intro x hx
        refine ⟨?_, decide_eq_false fun hon => hids x hx hon.2.symm⟩
        rw [hbox]
        simp only [List.mem_append, List.mem_cons] at hx ⊢
        exact hx.imp_right .inr
      simp only [List.mem_append, List.mem_cons] at hother
      rcases hother with hahead | rfl | hbehind
      · exact .inl (hstays other (List.mem_append_left _ hahead))
      · exact .inr ⟨rfl, rfl⟩
      · exact .inl (hstays other (List.mem_append_right _ hbehind))
    · rw [hbox', if_neg hid] at hother
      exact .inl ⟨hother, decide_eq_false fun hon => hid hon.1.symm⟩

end Calls

section Handlers

/-- The messages are handed to the outbox of a payment. -/
structure Appends (store store' : Store) (paymentId : String)
    (added : List PendingMessage) : Prop where
  box : ∀ other, box store' other =
    if other = paymentId then box store other ++ added else box store other
  enqueued : ∀ other, enqueued store' other =
    if other = paymentId then enqueued store other ++ added else enqueued store other

/-- The messages have ids of their own, which no message ever had. -/
structure FreshIds (store : Store) (added : List PendingMessage) : Prop where
  nodup : (added.map PendingMessage.id).Nodup
  new : ∀ message ∈ added, ∀ paymentId, ∀ said ∈ handedOver store paymentId,
    said.id ≠ message.id

theorem Appends.refl (store : Store) (paymentId : String) :
    Appends store store paymentId [] where
  box := by simp
  enqueued := by simp

theorem Appends.letters {store store' : Store} {paymentId : String}
    {added : List PendingMessage} (h : Appends store store' paymentId added)
    (other : String) : letters store' other = letters store other ++
      if other = paymentId then added.map letter else [] := by
  rw [Claims.letters, h.box]
  split <;> simp [Claims.letters]

theorem Appends.handedOver {store store' : Store} {paymentId : String}
    {added : List PendingMessage} (h : Appends store store' paymentId added)
    (other : String) : handedOver store' other = handedOver store other ++
      if other = paymentId then added.map letter else [] := by
  rw [Claims.handedOver, h.enqueued]
  split <;> simp [Claims.handedOver]

theorem freshIds_nil (store : Store) : FreshIds store [] where
  nodup := List.nodup_nil
  new := by simp

theorem FreshIds.stored {store : Store} {added : List PendingMessage}
    (h : FreshIds store added) :
    FreshIds store (added.map PendingMessage.stored) where
  nodup := by
    rw [List.map_map]
    exact h.nodup
  new := by
    intro message hmessage
    obtain ⟨original, horiginal, rfl⟩ := List.mem_map.mp hmessage
    exact h.new original horiginal

theorem Sound.appended {store store' : Store} {log : Log} (h : Sound store log)
    {paymentId : String} {added : List PendingMessage}
    (happends : Appends store store' paymentId added)
    (hfresh : FreshIds store added) : Sound store' log := by
  have hletters := happends.letters
  have hhanded := happends.handedOver
  have hbox {other : String} {message : PendingMessage}
      (hmem : message ∈ box store other) : message ∈ box store' other := by
    rw [happends.box]
    split
    · exact List.mem_append_left _ hmem
    · exact hmem
  constructor
  · intro other
    rw [hletters, hhanded]
    exact (h.listed other).append_right _
  · intro other
    rw [hhanded, List.map_append]
    split
    · rw [List.map_map]
      refine List.Nodup.append (h.unique other) hfresh.nodup ?_
      intro id hold hnew
      obtain ⟨said, hsaid, rfl⟩ := List.mem_map.mp hold
      obtain ⟨message, hmessage, hid⟩ := List.mem_map.mp hnew
      exact hfresh.new message hmessage other said hsaid hid.symm
    · simpa using h.unique other
  · intro other said hsaid
    rw [hhanded, List.mem_append] at hsaid
    rw [hletters, List.mem_append]
    rcases hsaid with hold | hnew
    · exact (h.kept other said hold).imp_left .inl
    · exact .inl (.inr hnew)
  · exact h.tokens
  · exact h.drawn
  · intro claim hclaim
    rw [hhanded]
    exact List.mem_append_left _ (h.origin claim hclaim)
  · intro claim hclaim hheld
    refine (h.current claim hclaim hheld).imp_right ?_
    rintro ⟨message, hmem, hmessage⟩
    exact ⟨message, hbox hmem, hmessage⟩
  · intro other message hmem claim hclaim hon htoken
    rw [happends.box] at hmem
    have hold : message ∈ box store other := by
      split at hmem
      · rcases List.mem_append.mp hmem with hold | hnew
        · exact hold
        · obtain ⟨_, hid⟩ := of_decide_eq_true hon
          exact absurd hid (hfresh.new message hnew _ _ (h.origin claim hclaim))
      · exact hmem
    exact h.latest other message hold claim hclaim hon htoken

theorem appends_of_changed {invocation : String} {request : Request}
    {store store' : Store} {choice : Choice} {op : Op}
    (h : Changed invocation request store choice op store') :
    ∃ paymentId added, Appends store store' paymentId added ∧
      (added = [] ∨ added = (pushedBy op).map PendingMessage.stored) := by
  cases h with
  | kept => exact ⟨"", [], .refl store "", .inl rfl⟩
  | @created payment hop hnew =>
      have hrow : store.payments.row
          (Payment.stored (stamped payment choice.newId choice.now)).id = none :=
        row_of_not_duplicate hnew
      refine ⟨(Payment.stored (stamped payment choice.newId choice.now)).id, _, ?_,
        .inr rfl⟩
      subst hop
      rw [create, hnew, if_neg Bool.false_ne_true]
      constructor
      · intro other
        rw [box, row_created hrow]
        split
        · rename_i hid
          subst hid
          simp [box, hrow]
          rfl
        · rfl
      · intro other
        simp only [enqueued, commits_record_some]
        split
        · rename_i hid
          rw [if_pos hid.symm, List.flatMap_append]
          simp
          rfl
        · rename_i hid
          rw [if_neg (Ne.symm hid)]
  | @updated payment update hupdate hrow _ =>
      obtain ⟨hpending, hpush⟩ := pendingMessages_of_update hupdate payment
      refine ⟨payment.id, _, ?_, .inr rfl⟩
      constructor
      · intro other
        rw [box, row_updated hrow]
        split
        · rename_i hid
          subst hid
          simp [box_of_row hrow, hpending]
        · rfl
      · intro other
        simp only [enqueued, commits_record_some, update.id_apply, hpush]
        split
        · rename_i hid
          rw [if_pos hid.symm, List.flatMap_append]
          simp
        · rename_i hid
          rw [if_neg (Ne.symm hid)]

end Handlers

end Modularis.Payments.Claims
