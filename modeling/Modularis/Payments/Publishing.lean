import Modularis.Payments.Claims

namespace Modularis.Payments.Publishing

open Modularis.Foundation
open Modularis.Foundation.Program
open Modularis.Payments.Models
open Modularis.Payments.Repository
open Modularis.Payments.Operations (Store)
open Modularis.Payments.Handlers
open Modularis.Payments.Outbox
open Modularis.Payments.Claims

/-- The run claimed this message. -/
def Held (run : String) (log : Log) (publish : PendingPublish) : Prop :=
  ∃ claim ∈ log.claims, claim.run = run ∧ claim.publish = publish

/-- A call of `Publish` by the run, with this letter, returned nil. -/
def PublishedBy (run : String) (log : Log) (said : Letter) : Prop :=
  ∃ publication ∈ log.publications, publication.run = run ∧
    publication.accepted = true ∧ publication.exchange = said.exchange ∧
    publication.routingKey = said.routingKey ∧ publication.body = said.body

theorem PublishedBy.published {run : String} {log : Log} {said : Letter}
    (h : PublishedBy run log said) : Published log said := by
  obtain ⟨publication, hmem, _, hpublished⟩ := h
  exact ⟨publication, hmem, hpublished⟩

/-- What a call of a run does to the state. -/
inductive Acts (run : String) (state : State) : State → Prop
  | kept : Acts run state state
  | claimed {claim : Claim} {store : Store} : claim.run = run →
      Takes claim state.log state.store store →
      Acts run state
        { store := store
          log := { state.log with claims := state.log.claims ++ [claim] } }
  | published (publication : Publication) : publication.run = run →
      Acts run state
        { state with
          log :=
            { state.log with
              publications := state.log.publications ++ [publication] } }
  | retried {claim : Claim} (nextAttemptAt : Int) (attempts : Nat) (now : Int) :
      claim ∈ state.log.claims → claim.run = run →
      Acts run state (state.modify claim.publish.paymentId
        (retryPayment claim.publish.message.id claim.token nextAttemptAt attempts now)
        (id_retryPayment claim.publish.message.id claim.token nextAttemptAt attempts now)
        { state.log with
          givenBack := state.log.givenBack ++ [(claim.run, claim.token)] })
  | acknowledged {claim : Claim} (now : Int) :
      claim ∈ state.log.claims → claim.run = run →
      PublishedBy run state.log (letter claim.publish.message) →
      Acts run state (state.modify claim.publish.paymentId
        (acknowledgePayment claim.publish.message.id claim.token now)
        (id_acknowledgePayment claim.publish.message.id claim.token now)
        { state.log with
          givenBack := state.log.givenBack ++ [(claim.run, claim.token)] })

/-- No claim and no publication is forgotten. -/
structure Grows (log log' : Log) : Prop where
  claims : ∀ claim ∈ log.claims, claim ∈ log'.claims
  publications : ∀ publication ∈ log.publications, publication ∈ log'.publications

theorem Grows.refl (log : Log) : Grows log log := ⟨fun _ => id, fun _ => id⟩

theorem Grows.trans {log log' log'' : Log} (h : Grows log log')
    (h' : Grows log' log'') : Grows log log'' where
  claims := fun claim hclaim => h'.claims claim (h.claims claim hclaim)
  publications := fun publication hmem =>
    h'.publications publication (h.publications publication hmem)

theorem Held.mono {run : String} {log log' : Log} {publish : PendingPublish}
    (h : Held run log publish) (hgrows : Grows log log') : Held run log' publish := by
  obtain ⟨claim, hclaim, hheld⟩ := h
  exact ⟨claim, hgrows.claims claim hclaim, hheld⟩

theorem PublishedBy.mono {run : String} {log log' : Log} {said : Letter}
    (h : PublishedBy run log said) (hgrows : Grows log log') :
    PublishedBy run log' said := by
  obtain ⟨publication, hmem, hpublished⟩ := h
  exact ⟨publication, hgrows.publications publication hmem, hpublished⟩

theorem grows_published (log : Log) (publication : Publication) :
    Grows log { log with publications := log.publications ++ [publication] } :=
  ⟨fun _ => id, fun _ => List.mem_append_left _⟩

theorem grows_of_acts {run : String} {state state' : State}
    (h : Acts run state state') : Grows state.log state'.log := by
  cases h with
  | kept => exact .refl _
  | claimed => exact ⟨fun _ => List.mem_append_left _, fun _ => id⟩
  | published publication => exact grows_published _ publication
  | retried | acknowledged => exact ⟨fun _ => id, fun _ => id⟩

theorem sound_of_acts {run : String} {state state' : State}
    (hsound : Sound state.store state.log) (h : Acts run state state') :
    Sound state'.store state'.log := by
  cases h with
  | kept => exact hsound
  | claimed _ htakes => exact hsound.claimed htakes
  | published publication => exact hsound.published publication
  | retried nextAttemptAt attempts now hclaim _ =>
      exact hsound.givenBack hclaim
        (givesBack_retried state _ _ _ nextAttemptAt attempts now)
  | acknowledged now hclaim _ hpublished =>
      exact hsound.givenBack hclaim
        (givesBack_acknowledged _ hsound hclaim hpublished.published now)

open Classical in
/-- `publishAct` where a token that is not fresh fails the call. -/
noncomputable def freshAct (run : String) (request : Unit) (state : State)
    (op : PublishOp) (choice : PublishChoice) : PublishReply op × State :=
  match op with
  | .claim claimToken before claimUntil =>
      if FreshToken state.store state.log claimToken then
        publishAct run request state (.claim claimToken before claimUntil) choice
      else (.error "", state)
  | op => publishAct run request state op choice

/-- Claims and publications stay in order, if the tokens that are drawn are new. -/
noncomputable def rules : Pool.Rules freshAct where
  inv := fun state => Sound state.store state.log
  rely := fun _ state state' => Grows state.log state'.log
  guar := fun run _ => Acts run
  ready := fun _ _ => True
  rely_refl := fun _ state => .refl state.log
  rely_trans := fun _ _ _ _ => Grows.trans
  guar_refl := fun _ _ _ => .kept
  inv_of_guar := fun _ _ _ _ => sound_of_acts
  rely_of_guar := fun _ _ _ _ _ _ _ => grows_of_acts
  ready_of_rely := fun _ _ _ _ _ => trivial

section Runs

variable {s : Service} {run : String} {state : State} {α : Type}

abbrev Keeps (run : String) (post : α → State → Prop) (p : PublishProgram α)
    (state : State) : Prop :=
  p.Safe (rules.contract run ()) post state

theorem row_of_target {payments : Collection} {before : Int} {preferred : String}
    {document : Eligible before} (h : target payments before preferred = some document) :
    payments.row document.payment.id = some document.payment := by
  have heligible {payment : Payment} (he : eligible? before payment = some document) :
      document.payment = payment := by
    unfold eligible? at he
    split at he
    · rw [← Option.some.inj he]
    · cases he
  rcases Option.or_eq_some_iff.mp h with hpreferred | ⟨_, hfound⟩
  · obtain ⟨payment, hrow, he⟩ := Option.bind_eq_some_iff.mp hpreferred
    rw [heligible he, payments.key_row preferred payment hrow]
    exact hrow
  · obtain ⟨payment, hmem, he⟩ := List.exists_of_findSome?_eq_some hfound
    rw [heligible he]
    exact (payments.mem_rows_iff payment).mp hmem

theorem acts_answered {updated : State} (h : Acts run state updated)
    (choice : PublishChoice) (answer : α) :
    Acts run state (answered state updated choice answer).2 := by
  unfold answered
  split
  · exact h
  · dsimp only
    split
    · exact h
    · exact .kept

theorem acts_claim (hsound : Sound state.store state.log) (run claimToken : String)
    (before claimUntil : Int) (choice : PublishChoice) :
    Acts run state (freshAct run () state (.claim claimToken before claimUntil)
      choice).2 ∧
    ∀ claimed, (freshAct run () state (.claim claimToken before claimUntil) choice).1 =
        .ok (some claimed) →
      Held run (freshAct run () state (.claim claimToken before claimUntil)
        choice).2.log claimed.publish := by
  simp only [freshAct]
  split
  · rename_i hfresh
    simp only [publishAct]
    cases htarget : target state.store.payments before choice.document with
    | none =>
        refine ⟨acts_answered .kept choice none, fun claimed hclaimed => ?_⟩
        revert hclaimed
        cases hfailure : choice.failure <;> simp [answered, hfailure]
    | some document =>
        have htakes := takes_claimed hsound (row_of_target htarget) hfresh run
          claimUntil choice.now
          { state.log with
            claims := state.log.claims ++
              [{ run := run
                 publish := (document.claim claimToken claimUntil choice.now).publish
                 claimedUntil := date claimUntil
                 before := before }] }
        refine ⟨acts_answered (.claimed rfl htakes) choice _, fun claimed hclaimed => ?_⟩
        revert hclaimed
        cases hfailure : choice.failure with
        | some error => simp [answered, hfailure]
        | none =>
            simp only [answered, hfailure]
            rintro ⟨⟩
            exact ⟨_, List.mem_append_right _ (List.mem_singleton_self _), rfl, rfl⟩
  · exact ⟨.kept, by simp⟩

theorem keeps_pure {post : α → State → Prop} (value : α)
    (h : ∀ τ : State, Grows state.log τ.log → post value τ) :
    Keeps run post (pure value) state :=
  fun τ hgrows _ => h τ hgrows

theorem keeps_ask {post : α → State → Prop} {op : PublishOp}
    {f : PublishReply op → PublishProgram α}
    (hop : ∀ (τ : State) choice, (freshAct run () τ op choice).2 = τ)
    (h : ∀ reply τ, Grows state.log τ.log → Keeps run post (f reply) τ) :
    Keeps run post (call op >>= f) state := by
  refine safe_perform_bind fun τ hgrows _ choice => ?_
  change Acts run τ (freshAct run () τ op choice).2 ∧
    Keeps run post (f (freshAct run () τ op choice).1) (freshAct run () τ op choice).2
  rw [hop τ choice]
  exact ⟨.kept, h _ τ hgrows⟩

theorem keeps_claimFrom (before claimUntil : Int) (remaining : Nat)
    {result : List PendingPublish}
    (hresult : ∀ publish ∈ result, Held run state.log publish) :
    Keeps run (fun reply τ => ∀ publishes, reply = .ok publishes →
        ∀ publish ∈ publishes, Held run τ.log publish)
      (claimFrom before claimUntil result remaining) state := by
  induction remaining generalizing result state with
  | zero =>
      refine keeps_pure _ fun τ hgrows => ?_
      rintro _ ⟨⟩ publish hpublish
      exact (hresult publish hpublish).mono hgrows
  | succ remaining ih =>
      refine keeps_ask (fun _ _ => rfl) fun claimToken σ hσ => ?_
      refine safe_perform_bind fun τ hτ hsound choice => ?_
      obtain ⟨hacts, hclaimed⟩ := acts_claim hsound run claimToken before claimUntil
        choice
      refine ⟨hacts, ?_⟩
      have hresult' (publish : PendingPublish) (hpublish : publish ∈ result) :
          Held run (freshAct run () τ (.claim claimToken before claimUntil)
            choice).2.log publish :=
        ((hresult publish hpublish).mono (hσ.trans hτ)).mono (grows_of_acts hacts)
      dsimp only [Pool.Rules.contract]
      generalize (freshAct run () τ (.claim claimToken before claimUntil) choice).1 =
        reply at hclaimed ⊢
      generalize (freshAct run () τ (.claim claimToken before claimUntil) choice).2 =
        υ at hacts hclaimed hresult' ⊢
      match reply with
      | .error error => exact keeps_pure _ fun υ' _ publishes hpublishes => nomatch hpublishes
      | .ok none =>
          refine keeps_pure _ fun υ' hgrows => ?_
          rintro _ ⟨⟩ publish hpublish
          exact (hresult' publish hpublish).mono hgrows
      | .ok (some claimed) =>
          refine ih fun publish hpublish => ?_
          rcases List.mem_append.mp hpublish with hold | hnew
          · exact hresult' publish hold
          · rw [List.mem_singleton.mp hnew]
            exact hclaimed claimed rfl

theorem keeps_last {op : PublishOp}
    (h : ∀ τ choice, Grows state.log τ.log → Sound τ.store τ.log →
      Acts run τ (freshAct run () τ op choice).2) :
    Keeps run (fun _ _ => True) (call op >>= fun _ => pure ()) state :=
  safe_perform_bind fun τ hgrows hsound choice =>
    ⟨h τ choice hgrows hsound, keeps_pure () fun _ _ => trivial⟩

theorem keeps_publishOne {publish : PendingPublish}
    (hheld : Held run state.log publish) :
    Keeps run (fun _ _ => True) (publishOne s publish) state := by
  refine safe_perform_bind fun τ hgrows _ choice => ?_
  have hheld := hheld.mono hgrows
  cases hfailure : choice.failure with
  | some error =>
      simp only [Pool.Rules.contract, rules, freshAct, publishAct, hfailure]
      refine ⟨.published _ rfl, ?_⟩
      refine keeps_ask (fun _ _ => rfl) fun now υ hυ => ?_
      refine keeps_last fun υ' choice hυ' _ => ?_
      obtain ⟨claim, hclaim, hrun, rfl⟩ :=
        hheld.mono (((grows_published τ.log _).trans hυ).trans hυ')
      have hacts := Acts.retried (now + Shared.Durations.backoffDelay
        (claim.publish.message.attempts + 1) s.config.processingDelay
        s.config.processingBackoff) (claim.publish.message.attempts + 1) choice.now
        hclaim hrun
      subst hrun
      exact acts_answered hacts choice ()
  | none =>
      simp only [Pool.Rules.contract, rules, freshAct, publishAct, hfailure]
      refine ⟨.published _ rfl, ?_⟩
      refine keeps_last fun υ choice hυ _ => ?_
      obtain ⟨claim, hclaim, hrun, rfl⟩ :=
        hheld.mono ((grows_published τ.log _).trans hυ)
      have hpublished : PublishedBy run υ.log (letter claim.publish.message) :=
        ⟨_, hυ.publications _ (List.mem_append_right _ (List.mem_singleton_self _)),
          rfl, rfl, rfl, rfl, rfl⟩
      have hacts := Acts.acknowledged choice.now hclaim hrun hpublished
      subst hrun
      exact acts_answered hacts choice ()

theorem keeps_publishAll {publishes : List PendingPublish}
    (hsound : Sound state.store state.log)
    (hheld : ∀ publish ∈ publishes, Held run state.log publish) :
    Keeps run (fun _ _ => True) (publishAll s publishes) state := by
  induction publishes generalizing state with
  | nil => exact keeps_pure () fun _ _ => trivial
  | cons publish publishes ih =>
      obtain ⟨hfirst, hrest⟩ := List.forall_mem_cons.mp hheld
      have hone := (keeps_publishOne (s := s) hfirst).with_stable
        (Q := fun τ => ∀ other ∈ publishes, Held run τ.log other) hrest
        (fun τ υ hτ (hgrows : Grows τ.log υ.log) other hother =>
          (hτ other hother).mono hgrows)
        (fun τ υ hτ (hacts : Acts run τ υ) other hother =>
          (hτ other hother).mono (grows_of_acts hacts))
      exact hone.bind hsound fun _ τ hτ hheld => ih hτ hheld.2

theorem keeps_publishPending (run : String) :
    Keeps run (fun _ _ => True) (publishPending s) state := by
  refine safe_perform_bind fun τ _ hsound choice => ⟨.kept, ?_⟩
  refine (keeps_claimFrom _ _ _ fun _ hmem => absurd hmem List.not_mem_nil).bind hsound
    fun reply υ hυ hheld => ?_
  cases reply with
  | error => exact keeps_pure _ fun _ _ => trivial
  | ok publishes =>
      exact (keeps_publishAll hυ (hheld publishes rfl)).bind hυ
        fun _ _ _ _ => keeps_pure _ fun _ _ => trivial

end Runs

end Modularis.Payments.Publishing
