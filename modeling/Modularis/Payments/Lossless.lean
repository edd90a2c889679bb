import Modularis.Payments.Lifecycle
import Modularis.Payments.Publishing

namespace Modularis.Payments.Lossless

open Modularis.Foundation
open Modularis.Foundation.Program
open Modularis.Foundation.GoTime (minute)
open Modularis.Payments.Models
open Modularis.Payments.Repository
open Modularis.Payments.Operations (Op Store)
open Modularis.Payments.Handlers
open Modularis.Payments.Lifecycle (sampleService sampleCreate sampleChoice)
open Modularis.Payments.Changes
open Modularis.Payments.Outbox
open Modularis.Payments.Claims
open Modularis.Payments.Publishing

/-- The message ids that a handler hands over and the token of a claim are new. -/
def Fresh (world : World) : Event → Prop
  | .handler (.act i _) => ∀ request op next,
      world.payments.invocations i =
        some { request := request, rest := some (.call op next) } →
      FreshIds world.payments.shared (pushedBy op)
  | .publisher (.act run _) => ∀ claimToken before claimUntil next,
      world.publishers run =
        some
          { request := ()
            rest := some (.call (.claim claimToken before claimUntil) next) } →
      FreshToken world.payments.shared world.log claimToken
  | _ => True

section Steps

variable {s : Service} {world next : World}

/-- Every run that is still going keeps to what it claimed and published. -/
abbrev Steady (world : World) : Prop :=
  Pool.Orderly rules (fun _ _ _ _ => True) world.publishing

theorem sound_empty : Sound Store.empty .empty where
  listed := fun _ => .refl _
  unique := fun _ => List.nodup_nil
  kept := fun _ _ h => absurd h List.not_mem_nil
  tokens := List.nodup_nil
  drawn := fun _ h => absurd h List.not_mem_nil
  origin := fun _ h => absurd h List.not_mem_nil
  current := fun _ h => absurd h List.not_mem_nil
  latest := fun _ _ h => absurd h List.not_mem_nil

theorem steady_init : Steady World.init :=
  Pool.orderly_init sound_empty fun _ => trivial

theorem freshAct_eq {run : String} {state : State} {op : PublishOp}
    (h : ∀ claimToken before claimUntil, op = .claim claimToken before claimUntil →
      FreshToken state.store state.log claimToken) (choice : PublishChoice) :
    freshAct run () state op choice = publishAct run () state op choice := by
  cases op with
  | claim claimToken before claimUntil => exact if_pos (h _ _ _ rfl)
  | _ => rfl

theorem step_fresh {event : PublishEvent} (h : Fresh world (.publisher event)) :
    Pool.step (fun _ => publishPending s) freshAct world.publishing event =
      Pool.step (fun _ => publishPending s) publishAct world.publishing event := by
  cases event with
  | act run choice =>
      simp only [Pool.step]
      split
      · rename_i op next hrunning
        rw [freshAct_eq]
        rintro claimToken before claimUntil rfl
        exact h claimToken before claimUntil next hrunning
      · rfl
  | _ => rfl

theorem steady_of_handler {event : Interleaving.Event} {payments : Interleaving.World}
    (h : Steady world) (hfresh : Fresh world (.handler event))
    (hstep : Interleaving.step s world.payments event = some payments) :
    Steady { world with payments := payments } := by
  refine Pool.Orderly.external h ?_ fun _ => .refl _
  by_cases hact : ∃ i choice, event = .act i choice
  · obtain ⟨i, choice, rfl⟩ := hact
    obtain ⟨request, op, next, hrunning, hshared⟩ := Pool.step_act hstep
    have hids := hfresh request op next hrunning
    obtain ⟨paymentId, added, happends, hadded⟩ := appends_of_changed
      (changed_act i request world.payments.shared op choice)
    rw [← hshared] at happends
    refine Sound.appended h.inv happends ?_
    rcases hadded with rfl | rfl
    · exact freshIds_nil _
    · exact hids.stored
  · have hshared := Pool.shared_of_step
      (fun i choice he => hact ⟨i, choice, he⟩) hstep
    change Sound payments.shared world.log
    rw [hshared]
    exact h.inv

theorem steady_of_step {event : Event} (h : Steady world) (hfresh : Fresh world event)
    (hstep : step s world event = some next) : Steady next := by
  cases event with
  | handler event =>
      obtain ⟨payments, hpayments, rfl⟩ := Option.map_eq_some_iff.mp hstep
      exact steady_of_handler h hfresh hpayments
  | publisher event =>
      obtain ⟨publishing, hpublishing, rfl⟩ := Option.map_eq_some_iff.mp hstep
      rw [← step_fresh hfresh] at hpublishing
      exact (h.step (fun run _ _ _ _ => keeps_publishPending run) hpublishing).1

end Steps

section Leaving

variable {s : Service} {world next : World} {run : String} {state state' : State}

/-- The run that holds the token of a message acknowledges it, and has published it. -/
def Acknowledged (world : World) (event : Event) (paymentId : String)
    (message : PendingMessage) : Prop :=
  ∃ run choice after,
    event = .publisher (.act run choice) ∧
    world.publishers run = some
      { request := ()
        rest := some (.call (.acknowledgePendingPublish paymentId message.id
          message.claimToken) after) } ∧
    (∃ claim ∈ world.log.claims, claim.run = run ∧
      claim.on paymentId message.id = true ∧ claim.token = message.claimToken) ∧
    PublishedBy run world.log (letter message)

theorem claim_of_acts (hsound : Sound state.store state.log)
    (h : Acts run state state') {paymentId : String} {message : PendingMessage}
    (hmem : message ∈ box state.store paymentId)
    (hgone : letter message ∉ letters state'.store paymentId) :
    (∃ claim ∈ state.log.claims, claim.run = run ∧
      claim.on paymentId message.id = true ∧ claim.token = message.claimToken) ∧
    PublishedBy run state.log (letter message) := by
  have hletter : letter message ∈ letters state.store paymentId :=
    List.mem_map_of_mem hmem
  cases h with
  | kept => exact absurd hletter hgone
  | claimed _ htakes =>
      rw [htakes.letters] at hgone
      exact absurd hletter hgone
  | published => exact absurd hletter hgone
  | retried nextAttemptAt attempts now =>
      rw [letters_retried] at hgone
      exact absurd hletter hgone
  | @acknowledged claim now hclaim hrun hpublished =>
      by_cases hmatches : paymentId = claim.publish.paymentId ∧
          matchesClaim claim.publish.message.id claim.token message = true
      · obtain ⟨rfl, hmatches⟩ := hmatches
        obtain ⟨hid, htoken⟩ := of_decide_eq_true hmatches
        rw [hsound.letter_eq hclaim hmem hid]
        exact ⟨⟨claim, hclaim, hrun, decide_eq_true ⟨rfl, hid.symm⟩, htoken.symm⟩,
          hpublished⟩
      · refine absurd (List.mem_map_of_mem ?_) hgone
        exact (givesBack_acknowledged _ hsound hclaim hpublished.published now).others
          paymentId message hmem hmatches

theorem answered_cases {α : Type} (state updated : State) (choice : PublishChoice)
    (answer : α) : (answered state updated choice answer).2 = state ∨
      (answered state updated choice answer).2 = updated := by
  unfold answered
  split
  · exact .inr rfl
  · dsimp only
    split
    · exact .inr rfl
    · exact .inl rfl

theorem acknowledges_of_gone {op : PublishOp} {choice : PublishChoice}
    {paymentId : String} {message : PendingMessage}
    (hmem : message ∈ box state.store paymentId)
    (hgone : letter message ∉
      letters (publishAct run () state op choice).2.store paymentId) :
    op = .acknowledgePendingPublish paymentId message.id message.claimToken := by
  have hletter : letter message ∈ letters state.store paymentId :=
    List.mem_map_of_mem hmem
  cases op with
  | timeNow | newString => exact absurd hletter hgone
  | claim claimToken before claimUntil =>
      refine absurd ?_ hgone
      simp only [publishAct]
      split
      · rcases answered_cases state state choice (none : Option (Claimed claimToken))
          with h | h <;> rw [h] <;> exact hletter
      · rename_i document _
        rcases answered_cases state _ choice
          (some (document.claim claimToken claimUntil choice.now)) with h | h
        · rw [h]
          exact hletter
        · rw [h, letters_claimed]
          exact hletter
  | publish exchange routingKey body =>
      refine absurd ?_ hgone
      simp only [publishAct]
      split <;> exact hletter
  | retryPendingPublish payment messageId claimToken nextAttemptAt attempts =>
      refine absurd ?_ hgone
      simp only [publishAct]
      rcases answered_cases state _ choice () with h | h
      · rw [h]
        exact hletter
      · rw [h, letters_retried]
        exact hletter
  | acknowledgePendingPublish payment messageId claimToken =>
      simp only [publishAct] at hgone
      rcases answered_cases state _ choice () with h | h
      · rw [h] at hgone
        exact absurd hletter hgone
      · rw [h, letters, box_acknowledged] at hgone
        split at hgone
        · rename_i hid
          subst hid
          by_cases hmatches : matchesClaim messageId claimToken message = true
          · obtain ⟨rfl, rfl⟩ := of_decide_eq_true hmatches
            rfl
          · refine absurd (List.mem_map_of_mem (List.mem_filter.mpr ⟨hmem, ?_⟩)) hgone
            simpa using hmatches
        · exact absurd hletter hgone

theorem letters_of_handler {event : Interleaving.Event} {payments : Interleaving.World}
    (hstep : Interleaving.step s world.payments event = some payments)
    (paymentId : String) :
    letters world.payments.shared paymentId ⊆ letters payments.shared paymentId := by
  by_cases hact : ∃ i choice, event = .act i choice
  · obtain ⟨i, choice, rfl⟩ := hact
    obtain ⟨request, op, next, _, hshared⟩ := Pool.step_act hstep
    obtain ⟨other, added, happends, _⟩ := appends_of_changed
      (changed_act i request world.payments.shared op choice)
    rw [← hshared] at happends
    rw [letters, letters, happends.box]
    split
    · rw [List.map_append]
      exact List.subset_append_left _ _
    · exact List.Subset.refl _
  · rw [Pool.shared_of_step (fun i choice he => hact ⟨i, choice, he⟩) hstep]
    exact List.Subset.refl _

theorem leaves_of_step {event : Event} (h : Steady world)
    (hstep : step s world event = some next) {paymentId : String}
    {message : PendingMessage} (hmem : message ∈ box world.payments.shared paymentId) :
    letter message ∈ letters next.payments.shared paymentId ∨
      Acknowledged world event paymentId message := by
  have hletter : letter message ∈ letters world.payments.shared paymentId :=
    List.mem_map_of_mem hmem
  cases event with
  | handler event =>
      obtain ⟨payments, hpayments, rfl⟩ := Option.map_eq_some_iff.mp hstep
      exact .inl (letters_of_handler hpayments paymentId hletter)
  | publisher event =>
      obtain ⟨publishing, hpublishing, rfl⟩ := Option.map_eq_some_iff.mp hstep
      by_cases hact : ∃ run choice, event = .act run choice
      · obtain ⟨run, choice, rfl⟩ := hact
        obtain ⟨request, op, after, hrunning, hshared⟩ := Pool.step_act hpublishing
        by_cases hstays : letter message ∈
            letters (publishAct run () world.publishing.shared op choice).2.store paymentId
        · refine .inl ?_
          change letter message ∈ letters publishing.shared.store paymentId
          rw [hshared]
          exact hstays
        · obtain rfl := acknowledges_of_gone hmem hstays
          have hacts := h.guar hrunning choice
          obtain ⟨hclaim, hpublished⟩ := claim_of_acts h.inv hacts hmem hstays
          exact .inr ⟨run, choice, after, rfl, hrunning, hclaim, hpublished⟩
      · refine .inl ?_
        change letter message ∈ letters publishing.shared.store paymentId
        rw [Pool.shared_of_step (fun run choice he => hact ⟨run, choice, he⟩) hpublishing]
        exact hletter

end Leaving

section Claims

variable {store : Store} {log : Log}

/-- The run has not given the claim back and `time` is before its end. -/
def Unexpired (log : Log) (time : Int) (claim : Claim) : Prop :=
  (claim.run, claim.token) ∉ log.givenBack ∧ time < claim.claimedUntil

/-- The claims are of one message. -/
def SameMessage (claim other : Claim) : Prop :=
  claim.publish.paymentId = other.publish.paymentId ∧
    claim.publish.message.id = other.publish.message.id

/-- No two runs hold unexpired claims on one message, at any time that no clock of
a run has passed. -/
theorem eq_of_unexpired (h : Sound store log) {time : Int}
    (htime : ∀ claim ∈ log.claims, claim.before ≤ time) {claim other : Claim}
    (hclaim : claim ∈ log.claims) (hother : other ∈ log.claims)
    (hsame : SameMessage claim other) (hheld : Unexpired log time claim)
    (hheld' : Unexpired log time other) : claim = other := by
  have hcurrent {c : Claim} (hc : c ∈ log.claims) (hheld : Unexpired log time c) :
      ∃ message ∈ box store c.publish.paymentId,
        message.id = c.publish.message.id ∧ message.claimToken = c.token := by
    rcases h.current c hc hheld.1 with ⟨later, hlater, hle⟩ | ⟨message, hmem, hid, htoken, _⟩
    · exact absurd (hle.trans (htime later hlater)) (not_le_of_gt hheld.2)
    · exact ⟨message, hmem, hid, htoken⟩
  obtain ⟨message, hmem, hid, htoken⟩ := hcurrent hclaim hheld
  obtain ⟨message', hmem', hid', htoken'⟩ := hcurrent hother hheld'
  rw [hsame.1] at hmem
  obtain rfl := h.eq_of_id hmem hmem' ((hid.trans hsame.2).trans hid'.symm)
  exact h.eq_of_token hclaim hother (htoken.symm.trans htoken')

theorem not_matches_of_superseded (h : Sound store log) {earlier later : List Claim}
    {claim other : Claim} (hclaims : log.claims = earlier ++ claim :: later)
    (hother : other ∈ later) (hsame : SameMessage claim other)
    {message : PendingMessage} (hmem : message ∈ box store claim.publish.paymentId) :
    matchesClaim claim.publish.message.id claim.token message = false := by
  refine decide_eq_false ?_
  rintro ⟨hid, htoken⟩
  have hclaim : claim ∈ log.claims := by simp [hclaims]
  have hon : claim.on claim.publish.paymentId message.id = true :=
    decide_eq_true ⟨rfl, hid.symm⟩
  have hother' : other ∈ later.filter (Claim.on claim.publish.paymentId message.id) :=
    List.mem_filter.mpr ⟨hother, decide_eq_true ⟨hsame.1.symm, hsame.2.symm.trans hid.symm⟩⟩
  have hlast := h.latest _ message hmem claim hclaim hon htoken
  obtain ⟨front, last, hfilter⟩ : ∃ front last,
      later.filter (Claim.on claim.publish.paymentId message.id) = front ++ [last] :=
    (List.eq_nil_or_concat' _).resolve_left (List.ne_nil_of_mem hother')
  rw [hclaims, List.filter_append, List.filter_cons_of_pos hon, hfilter,
    ← List.cons_append, ← List.append_assoc, List.getLast?_concat] at hlast
  obtain rfl := Option.some.inj hlast
  have hlast : last ∈ later.filter (Claim.on last.publish.paymentId message.id) := by
    simp [hfilter]
  have hlater : last ∈ later := (List.mem_filter.mp hlast).1
  have hnodup := h.tokens
  rw [hclaims, List.map_append, List.map_cons, List.nodup_append] at hnodup
  exact (List.nodup_cons.mp hnodup.2.1).1 (List.mem_map_of_mem hlater)

end Claims

section Claiming

variable {run : String} {state : State} {payment : Payment}
  {choices : Nat → PublishChoice} {before claimUntil : Int}

/-- The run is left alone: no call fails, each query turns to the payment and each
token is new. -/
structure Undisturbed (payment : Payment) (choices : Nat → PublishChoice) : Prop where
  succeeds : ∀ n, (choices n).failure = none
  document : ∀ n, (choices n).document = payment.id
  distinct : ∀ m n, (choices m).newId = (choices n).newId → m = n
  new : ∀ n, ∀ message ∈ payment.pendingMessages,
    message.claimToken ≠ (choices n).newId

theorem leads_claim (run : String) (claimUntil : Int) (result : List PendingPublish)
    (remaining : Nat) {document : Eligible before} (hfailure : (choices 1).failure = none)
    (htarget : target state.store.payments before (choices 1).document = some document) :
    ∃ log, (claimFrom before claimUntil result (remaining + 1)).run (publishAct run ())
        choices state =
      (claimFrom before claimUntil (result ++
        [(document.claim (choices 0).newId claimUntil (choices 1).now).publish])
          remaining).run (publishAct run ()) (fun n => choices (n + 2))
        (state.modify document.payment.id
          (claimPayment (choices 0).newId before claimUntil (choices 1).now)
          (id_claimPayment (choices 0).newId before claimUntil (choices 1).now) log) := by
  have hdraw : publishAct run () state .newString (choices 0) =
      ((choices 0).newId, state) := rfl
  obtain ⟨log, hclaim⟩ : ∃ log, publishAct run () state
      (.claim (choices 0).newId before claimUntil) ((fun n => choices (n + 1)) 0) =
        (.ok (some (document.claim (choices 0).newId claimUntil (choices 1).now)),
          state.modify document.payment.id
            (claimPayment (choices 0).newId before claimUntil (choices 1).now)
            (id_claimPayment (choices 0).newId before claimUntil (choices 1).now)
            log) := by
    simp only [publishAct, htarget, answered, hfailure]
    exact ⟨_, rfl⟩
  refine ⟨log, (leads_perform_bind hdraw rfl).run.trans ?_⟩
  refine (leads_perform_bind hclaim rfl).run.trans ?_
  rfl

theorem run_claimFrom_of_none (run : String) (claimUntil : Int)
    (result : List PendingPublish) (remaining : Nat)
    (hfailure : (choices 1).failure = none)
    (htarget : target state.store.payments before (choices 1).document = none) :
    (claimFrom before claimUntil result (remaining + 1)).run (publishAct run ()) choices
      state = (.ok result, state) := by
  have hdraw : publishAct run () state .newString (choices 0) =
      ((choices 0).newId, state) := rfl
  have hclaim : publishAct run () state (.claim (choices 0).newId before claimUntil)
      ((fun n => choices (n + 1)) 0) = (.ok none, state) := by
    simp only [publishAct, htarget, answered, hfailure]
  refine (leads_perform_bind hdraw rfl).run.trans ?_
  refine (leads_perform_bind hclaim rfl).run.trans ?_
  rfl

theorem run_claimFrom_extends (hsucceeds : ∀ n, (choices n).failure = none)
    (result : List PendingPublish) (remaining : Nat) :
    ∃ more, ((claimFrom before claimUntil result remaining).run (publishAct run ())
      choices state).1 = .ok (result ++ more) := by
  induction remaining generalizing result choices state with
  | zero => exact ⟨[], by rw [List.append_nil]; rfl⟩
  | succ remaining ih =>
      cases htarget : target state.store.payments before (choices 1).document with
      | none =>
          have hrun := run_claimFrom_of_none run claimUntil result remaining
            (hsucceeds 1) htarget
          exact ⟨[], by rw [hrun, List.append_nil]⟩
      | some document =>
          obtain ⟨log, hrun⟩ := leads_claim run claimUntil result remaining
            (hsucceeds 1) htarget
          obtain ⟨more, hmore⟩ := ih (fun n => hsucceeds (n + 2)) (result ++
            [(document.claim (choices 0).newId claimUntil (choices 1).now).publish])
          rw [hrun, hmore]
          exact ⟨_, by rw [List.append_assoc]⟩

theorem target_of_row (hrow : state.store.payments.row payment.id = some payment)
    (h : payment.pendingMessages.any (claimable before) = true) :
    target state.store.payments before payment.id =
      some { payment := payment, claimable := h } := by
  simp [target, hrow, eligible?, h]

theorem updateFirst_append_of_any {α : Type} {wanted : α → Bool} (f : α → α)
    {xs : List α} (ys : List α) (h : xs.any wanted = true) :
    updateFirst wanted f (xs ++ ys) = updateFirst wanted f xs ++ ys := by
  induction xs with
  | nil => cases h
  | cons x xs ih =>
      by_cases hx : wanted x = true
      · simp [updateFirst, hx]
      · have hrest : xs.any wanted = true := by simpa [hx] using h
        simp [updateFirst, hx, ih hrest]

theorem updateFirst_append_of_not_any {α : Type} {wanted : α → Bool} (f : α → α)
    {xs : List α} (ys : List α) (h : xs.any wanted = false) :
    updateFirst wanted f (xs ++ ys) = xs ++ updateFirst wanted f ys := by
  induction xs with
  | nil => rfl
  | cons x xs ih =>
      rw [List.any_cons, Bool.or_eq_false_iff] at h
      simp [updateFirst, h.1, ih h.2]

theorem mem_of_mem_updateFirst {α : Type} {wanted : α → Bool} {f : α → α}
    {xs : List α} {y : α} (h : y ∈ updateFirst wanted f xs) :
    y ∈ xs ∨ ∃ x ∈ xs, y = f x := by
  cases hany : xs.any wanted with
  | false =>
      have hkept := updateFirst_append_of_not_any f [] hany
      rw [List.append_nil, updateFirst, List.append_nil] at hkept
      exact .inl (hkept ▸ h)
  | true =>
      obtain ⟨front, x, back, rfl, _, _, hupdate⟩ := updateFirst_split f hany
      rw [hupdate] at h
      simp only [List.mem_append, List.mem_cons] at h ⊢
      rcases h with hfront | rfl | hback
      · exact .inl (.inl hfront)
      · exact .inr ⟨x, .inr (.inl rfl), rfl⟩
      · exact .inl (.inr (.inr hback))

theorem Undisturbed.claimed (h : Undisturbed payment choices)
    (before claimUntil now : Int) :
    Undisturbed (claimPayment (choices 0).newId before claimUntil now payment)
      (fun n => choices (n + 2)) where
  succeeds := fun n => h.succeeds (n + 2)
  document := fun n => h.document (n + 2)
  distinct := by
    intro m n hsame
    have hindex := h.distinct (m + 2) (n + 2) hsame
    omega
  new := by
    intro n message hmem
    rcases mem_of_mem_updateFirst hmem with hold | ⟨original, _, rfl⟩
    · exact h.new (n + 2) message hold
    · intro hsame
      have hindex := h.distinct 0 (n + 2) hsame
      omega

theorem not_claimable_claimed (hlease : date before < date claimUntil)
    (claimToken : String) (message : PendingMessage) :
    claimable before (claimMessage claimToken claimUntil message) = false := by
  simp [claimable, claimMessage, hlease]

theorem countP_updateFirst (hlease : date before < date claimUntil)
    (claimToken : String) {ahead : List PendingMessage}
    (h : ahead.any (claimable before) = true) :
    (updateFirst (claimable before) (claimMessage claimToken claimUntil) ahead).countP
      (claimable before) < ahead.countP (claimable before) := by
  obtain ⟨front, message, back, rfl, hmessage, _, hupdate⟩ :=
    updateFirst_split (claimMessage claimToken claimUntil) h
  rw [hupdate]
  simp [List.countP_append, hmessage, not_claimable_claimed hlease claimToken]

theorem run_claimFrom (hlease : date before < date claimUntil)
    {ahead behind : List PendingMessage} {message : PendingMessage}
    (hdue : claimable before message = true) {remaining : Nat}
    (hlimit : ahead.countP (claimable before) < remaining)
    (result : List PendingPublish)
    (hrow : state.store.payments.row payment.id = some payment)
    (hbox : payment.pendingMessages = ahead ++ message :: behind)
    (hchoices : Undisturbed payment choices) :
    ∃ publishes, ((claimFrom before claimUntil result remaining).run
        (publishAct run ()) choices state).1 = .ok publishes ∧
      ∃ publish ∈ publishes, publish.paymentId = payment.id ∧
        letter publish.message = letter message := by
  induction remaining generalizing ahead payment choices state result with
  | zero => cases hlimit
  | succ remaining ih =>
      have hany : payment.pendingMessages.any (claimable before) = true := by
        simp [hbox, hdue]
      have htarget := target_of_row hrow hany
      rw [← hchoices.document 1] at htarget
      obtain ⟨log, hrun⟩ := leads_claim run claimUntil result remaining
        (hchoices.succeeds 1) htarget
      rw [hrun]
      cases hahead : ahead.any (claimable before) with
      | false =>
          have hupdate : updateFirst (claimable before)
              (claimMessage (choices 0).newId claimUntil) payment.pendingMessages =
                ahead ++ claimMessage (choices 0).newId claimUntil message :: behind := by
            rw [hbox, updateFirst_append_of_not_any _ _ hahead, updateFirst, if_pos hdue]
          have hpublish := publish_claim ⟨payment, hany⟩ (choices 1).now hupdate
            fun other hother => hchoices.new 0 other (by simp [hbox, hother])
          obtain ⟨more, hmore⟩ := run_claimFrom_extends
            (fun n => hchoices.succeeds (n + 2)) _ remaining
          rw [hmore, hpublish]
          refine ⟨_, rfl,
            { paymentId := payment.id
              message := claimMessage (choices 0).newId claimUntil message },
            by simp, rfl, rfl⟩
      | true =>
          have hcloser := countP_updateFirst hlease (choices 0).newId hahead
          have hrow' : (state.modify payment.id
              (claimPayment (choices 0).newId before claimUntil (choices 1).now)
              (id_claimPayment (choices 0).newId before claimUntil (choices 1).now)
              log).store.payments.row
                (claimPayment (choices 0).newId before claimUntil (choices 1).now
                  payment).id =
                some (claimPayment (choices 0).newId before claimUntil (choices 1).now
                  payment) := by
            simp [State.modify, Table.row_modify, hrow, id_claimPayment]
          have hbox' : (claimPayment (choices 0).newId before claimUntil (choices 1).now
              payment).pendingMessages =
                updateFirst (claimable before)
                  (claimMessage (choices 0).newId claimUntil) ahead ++
                    message :: behind := by
            rw [claimPayment, hbox]
            exact updateFirst_append_of_any _ _ hahead
          have hless : (updateFirst (claimable before)
              (claimMessage (choices 0).newId claimUntil) ahead).countP
                (claimable before) < remaining := by omega
          have hrest := ih hless (result ++ [Claimed.publish (Eligible.claim
            ⟨payment, hany⟩ (choices 0).newId claimUntil (choices 1).now)]) hrow' hbox'
            (hchoices.claimed before claimUntil _)
          exact hrest

end Claiming

/-- An acknowledgement or a retry with the token of the claim. -/
def GivesUp (claim : Claim) (op : PublishOp) : Prop :=
  op = .acknowledgePendingPublish claim.publish.paymentId claim.publish.message.id
      claim.token ∨
    ∃ nextAttemptAt attempts, op = .retryPendingPublish claim.publish.paymentId
      claim.publish.message.id claim.token nextAttemptAt attempts

theorem box_of_givesUp {state : State} {claim : Claim} {op : PublishOp}
    (h : ∀ message ∈ box state.store claim.publish.paymentId,
      matchesClaim claim.publish.message.id claim.token message = false)
    (hop : GivesUp claim op) (run : String) (choice : PublishChoice)
    (paymentId : String) :
    box (publishAct run () state op choice).2.store paymentId =
      box state.store paymentId := by
  rcases hop with rfl | ⟨nextAttemptAt, attempts, rfl⟩
  · simp only [publishAct]
    rcases answered_cases state _ choice () with hkept | hupdated
    · rw [hkept]
    · rw [hupdated, box_acknowledged]
      split
      · rename_i hid
        subst hid
        refine List.filter_eq_self.mpr fun message hmem => ?_
        rw [h message hmem]
        rfl
      · rfl
  · simp only [publishAct]
    rcases answered_cases state _ choice () with hkept | hupdated
    · rw [hkept]
    · rw [hupdated, box_retried]
      split
      · rename_i hid
        subst hid
        refine (List.map_congr_left fun message hmem => ?_).trans (List.map_id _)
        rw [h message hmem]
        rfl
      · rfl

/-- The outbox in one state of the service. -/
structure LosesNothing (s : Service) (world : World) : Prop where
  leaves : ∀ event next, step s world event = some next → ∀ paymentId,
    ∀ message ∈ box world.payments.shared paymentId,
      letter message ∈ letters next.payments.shared paymentId ∨
        Acknowledged world event paymentId message
  kept : ∀ paymentId, ∀ said ∈ handedOver world.payments.shared paymentId,
    said ∈ letters world.payments.shared paymentId ∨ Published world.log said
  exclusive : ∀ time, (∀ claim ∈ world.log.claims, claim.before ≤ time) →
    ∀ claim ∈ world.log.claims, ∀ other ∈ world.log.claims, SameMessage claim other →
      Unexpired world.log time claim → Unexpired world.log time other → claim = other
  superseded : ∀ earlier claim later, world.log.claims = earlier ++ claim :: later →
    ∀ other ∈ later, SameMessage claim other → ∀ op, GivesUp claim op →
      ∀ run choice paymentId,
        box (publishAct run () world.publishing.shared op choice).2.store paymentId =
          box world.payments.shared paymentId
  claimable : ∀ payment ahead message behind,
    world.payments.shared.payments.row payment.id = some payment →
    payment.pendingMessages = ahead ++ message :: behind → ∀ before,
    message.nextAttemptAt ≤ date before →
    (∀ claimedUntil, message.claimedUntil = some claimedUntil →
      claimedUntil ≤ date before) →
    ∀ run choices limit, Undisturbed payment choices →
      ahead.countP (Outbox.claimable before) < limit →
      ∃ publishes, ((claimPendingPublishes before (before + pendingPublishLease)
          limit).run (publishAct run ()) choices world.publishing.shared).1 =
            .ok publishes ∧
        ∃ publish ∈ publishes, publish.paymentId = payment.id ∧
          letter publish.message = letter message

theorem claimable_of_due {before : Int} {message : PendingMessage}
    (hnext : message.nextAttemptAt ≤ date before)
    (hclaim : ∀ claimedUntil, message.claimedUntil = some claimedUntil →
      claimedUntil ≤ date before) : claimable before message = true := by
  rw [claimable, Bool.and_eq_true]
  refine ⟨decide_eq_true hnext, ?_⟩
  cases huntil : message.claimedUntil with
  | none => rfl
  | some claimedUntil => exact decide_eq_true (hclaim claimedUntil huntil)

theorem losesNothing_of_steady {s : Service} {world : World} (h : Steady world) :
    LosesNothing s world where
  leaves := fun _ _ hstep _ _ => leaves_of_step h hstep
  kept := h.inv.kept
  exclusive := fun _ htime _ hclaim _ hother => eq_of_unexpired h.inv htime hclaim hother
  superseded := by
    intro earlier claim later hclaims other hother hsame op hop run choice paymentId
    exact box_of_givesUp (fun message hmem =>
      not_matches_of_superseded h.inv hclaims hother hsame hmem) hop run choice paymentId
  claimable := by
    intro payment ahead message behind hrow hbox before hnext hclaim run choices limit
      hchoices hlimit
    have hlease : date before < date (before + pendingPublishLease) := by
      simp only [date, pendingPublishLease, GoTime.second]
      omega
    exact run_claimFrom hlease (claimable_of_due hnext hclaim) hlimit [] hrow hbox
      hchoices

/-- In every state of every run of the handlers and of `PublishPending`. -/
theorem outbox_loses_nothing (s : Service) {trace : List (World × Event)}
    {world : World} (hrun : Run s trace world) (hfresh : ∀ p ∈ trace, Fresh p.1 p.2) :
    ∀ reached ∈ StepSystem.states trace world, LosesNothing s reached := by
  obtain ⟨hpassed, hlast⟩ := hrun.always (I := Steady) Fresh steady_init
    (fun _ _ _ => steady_of_step) hfresh
  intro reached hreached
  refine losesNothing_of_steady ?_
  rcases List.mem_append.mp hreached with hearlier | hend
  · obtain ⟨p, hp, rfl⟩ := List.mem_map.mp hearlier
    exact hpassed p hp
  · rw [List.mem_singleton.mp hend]
    exact hlast

section Sample

/-- The executable reading of `Fresh`. -/
def freshly (world : World) : Event → Bool
  | .handler (.act i _) =>
      match world.payments.invocations i with
      | some { request := _, rest := some (.call op _) } =>
          decide ((pushedBy op).map PendingMessage.id).Nodup &&
            (pushedBy op).all fun message =>
              world.payments.shared.history.all fun commit =>
                commit.write.pushed.all fun other => decide (other.id ≠ message.id)
      | _ => true
  | .publisher (.act run _) =>
      match world.publishers run with
      | some { request := _, rest := some (.call (.claim claimToken _ _) _) } =>
          decide (claimToken ≠ "") &&
            (world.log.claims.all fun claim => decide (claim.token ≠ claimToken)) &&
            world.payments.shared.payments.rows.all fun payment =>
              payment.pendingMessages.all fun message =>
                decide (message.claimToken ≠ claimToken)
      | _ => true
  | _ => true

theorem fresh_of_freshly {world : World} {event : Event}
    (h : freshly world event = true) : Fresh world event := by
  cases event with
  | handler event =>
      cases event with
      | act i choice =>
          intro request op next hrunning
          simp only [freshly, hrunning, Bool.and_eq_true, decide_eq_true_eq,
            List.all_eq_true] at h
          refine ⟨h.1, ?_⟩
          intro message hmessage paymentId said hsaid
          obtain ⟨other, hother, rfl⟩ := List.mem_map.mp hsaid
          obtain ⟨commit, hcommit, hpushed⟩ := List.mem_flatMap.mp hother
          exact h.2 message hmessage commit (List.mem_filter.mp hcommit).1 other hpushed
      | _ => exact trivial
  | publisher event =>
      cases event with
      | act run choice =>
          intro claimToken before claimUntil next hrunning
          simp only [freshly, hrunning, Bool.and_eq_true, decide_eq_true_eq,
            List.all_eq_true] at h
          refine ⟨h.1.1, h.1.2, ?_⟩
          intro paymentId message hmessage
          cases hrow : world.payments.shared.payments.row paymentId with
          | none =>
              rw [box, hrow] at hmessage
              cases hmessage
          | some payment =>
              rw [box_of_row hrow] at hmessage
              exact h.2 payment (Table.mem_rows_of_row hrow) message hmessage
      | _ => exact trivial

/-- No document has the preferred id: the query takes the first that it matches. -/
def samplePublish (now : Int) (newId : String) : PublishChoice where
  now := now
  newId := newId
  document := ""
  failure := none
  applied := true

/-- A run of `PublishPending` that meets these choices. -/
def sampleRun (run : String) (choices : List PublishChoice) : List Event :=
  .publisher (.start run ()) :: choices.map fun choice => .publisher (.act run choice)

/-- `CreatePayment` to its end.  A run of `PublishPending` claims its message, the broker
refuses it, and a later run publishes it. -/
def sampleEvents : List Event :=
  .handler (.start "i-1" sampleCreate) ::
    List.replicate 11 (.handler (.act "i-1" sampleChoice)) ++
  sampleRun "run-1" (["", "t-1", "", "t-2", ""].map (samplePublish minute) ++
    [{ samplePublish minute "" with failure := some "message was nacked" },
      samplePublish minute "", samplePublish minute ""]) ++
  sampleRun "run-2" (["", "t-3", "", "t-4", "", "", ""].map (samplePublish (3 * minute)))

theorem outbox_loses_nothing_sample :
    ∃ trace world, Run sampleService trace world ∧ world.log.claims.length = 2 ∧
      world.log.publications.map Publication.accepted = [false, true] ∧
      box world.payments.shared "payment-1" = [] ∧ LosesNothing sampleService world := by
  obtain ⟨world, hworld, hfresh, hclaims, haccepted, hbox⟩ : ∃ world,
      StepSystem.replay (step sampleService) World.init sampleEvents = some world ∧
      ((StepSystem.traceOf (step sampleService) World.init sampleEvents).all
        fun p => freshly p.1 p.2) = true ∧
      world.log.claims.length = 2 ∧
      world.log.publications.map Publication.accepted = [false, true] ∧
      box world.payments.shared "payment-1" = [] :=
    ⟨_, rfl, rfl, rfl, rfl, rfl⟩
  have hrun := StepSystem.run_of_replay hworld
  refine ⟨_, world, hrun, hclaims, haccepted, hbox, ?_⟩
  exact outbox_loses_nothing sampleService hrun
    (fun p hp => fresh_of_freshly (List.all_eq_true.mp hfresh p hp)) world
    (by simp [StepSystem.states])

end Sample

end Modularis.Payments.Lossless
