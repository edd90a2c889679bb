import Modularis.Webhook.Handler
import Modularis.Webhook.Relay

namespace Modularis.Webhook.Payloads

open Modularis.Foundation
open Modularis.Shared.Messaging
open Modularis.Shared.Text
open Modularis.Webhook.ReceiptStore
open Modularis.Webhook.Relay
open Modularis.Webhook.Handler

/-- The row under a key has a payload. -/
def Stores (receipts : Receipts) (key : String)
    (payload : Envelope PaymentCallbackConfirmedPayload) : Prop :=
  ∃ row, receipts.row key = some row ∧ row.payloadJson = payload

theorem Stores.unique {receipts : Receipts} {key : String}
    {payload payload' : Envelope PaymentCallbackConfirmedPayload}
    (h : Stores receipts key payload) (h' : Stores receipts key payload') :
    payload = payload' := by
  obtain ⟨row, hrow, rfl⟩ := h
  obtain ⟨row', hrow', rfl⟩ := h'
  rw [Option.some.inj (hrow.symm.trans hrow')]

/-- The receipts that a pass has still to publish or to settle. -/
def carried : Pass → List Receipt
  | .unused | .claiming _ | .ended => []
  | .publishing receipt rest | .retrying receipt _ _ rest
  | .marking receipt rest => receipt :: rest

@[simp] theorem carried_nextReceipt (rest : List Receipt) :
    carried (nextReceipt rest) = rest := by
  cases rest <;> rfl

section Relays

variable {cfg : Relay.Config} {σ σ' τ : World} {e : Event}
  {key : String} {payload : Envelope PaymentCallbackConfirmedPayload}

theorem stores_of_step (hstep : step cfg σ e = some σ')
    (h : Stores σ.receipts key payload) : Stores σ'.receipts key payload := by
  obtain ⟨row, hrow, hpayload⟩ := h
  have hchange := (effect_of_step hstep).1 key
  rw [hrow] at hchange
  unfold Stores
  generalize σ'.receipts.row key = new at hchange
  cases hchange with
  | kept => exact ⟨row, rfl, hpayload⟩
  | counted | claimed | published | retried => exact ⟨_, rfl, hpayload⟩

theorem stores_of_run {trace : List (World × Event)}
    (hrun : StepSystem.Run (step cfg) σ trace τ)
    (h : Stores σ.receipts key payload) : Stores τ.receipts key payload := by
  induction hrun with
  | nil => exact h
  | snoc _ hstep ih => exact stores_of_step hstep ih

theorem stores_of_claimed {owner : String} {skipLocked : String → Bool}
    {lockUntil now : Int} {limit : Nat} {receipts : Receipts} {receipt : Receipt}
    (h : receipt ∈ (claimPending receipts owner lockUntil limit skipLocked now).1) :
    Stores receipts receipt.dedupeKey receipt.payloadJson := by
  obtain ⟨row, hrow, rfl⟩ := List.mem_map.mp h
  exact ⟨row, (Table.mem_of_mem_select _ _ _ hrow).1, rfl⟩

theorem carried_setPass {σ : World} {owner other : String} {pass : Pass}
    {receipt : Receipt} (h : receipt ∈ carried ((σ.setPass other pass).passes owner)) :
    receipt ∈ carried (σ.passes owner) ∨
      owner = other ∧ receipt ∈ carried pass := by
  by_cases hother : owner = other
  · subst hother
    simp only [World.setPass, Function.update_self] at h
    exact .inr ⟨rfl, h⟩
  · simp only [World.setPass, Function.update_of_ne hother] at h
    exact .inl h

theorem carried_settlement {receipts : Receipts} {owner : String} {now : Int}
    {pass : Pass} {result : Receipts × Pass}
    (h : settlement receipts owner now pass = some result) {receipt : Receipt}
    (hmem : receipt ∈ carried result.2) : receipt ∈ carried pass := by
  cases pass with
  | retrying first retryAt error rest | marking first rest =>
      obtain rfl := Option.some.inj h
      rw [carried_nextReceipt] at hmem
      exact List.mem_cons_of_mem first hmem
  | unused | claiming | publishing | ended => cases h

theorem carried_afterFailure {pass pass' : Pass}
    (h : afterFailure pass = some pass') {receipt : Receipt}
    (hmem : receipt ∈ carried pass') : receipt ∈ carried pass := by
  cases pass with
  | claiming lockUntil =>
      obtain rfl := Option.some.inj h
      cases hmem
  | retrying first retryAt error rest | marking first rest =>
      obtain rfl := Option.some.inj h
      rw [carried_nextReceipt] at hmem
      exact List.mem_cons_of_mem first hmem
  | unused | publishing | ended => cases h

theorem carried_of_step (hstep : step cfg σ e = some σ') {owner : String}
    {receipt : Receipt} (h : receipt ∈ carried (σ'.passes owner)) :
    receipt ∈ carried (σ.passes owner) ∨
      Stores σ.receipts receipt.dedupeKey receipt.payloadJson := by
  cases e with
  | tick clock | register input now =>
      obtain ⟨_, hσ⟩ := Option.ite_none_right_eq_some.mp hstep
      obtain rfl := Option.some.inj hσ
      exact .inl h
  | wake other relayClock =>
      simp only [step] at hstep
      split at hstep
      · obtain rfl := Option.some.inj hstep
        rcases carried_setPass h with hold | ⟨_, hnew⟩
        · exact .inl hold
        · cases hnew
      · cases hstep
  | claim other skipLocked now =>
      simp only [step] at hstep
      split at hstep
      · obtain ⟨_, hσ⟩ := Option.ite_none_right_eq_some.mp hstep
        obtain rfl := Option.some.inj hσ
        rcases carried_setPass h with hold | ⟨_, hnew⟩
        · exact .inl hold
        · rw [carried_nextReceipt] at hnew
          exact .inr (stores_of_claimed hnew)
      · cases hstep
  | publish other answer relayClock =>
      simp only [step] at hstep
      split at hstep
      · rename_i first rest hpass
        obtain rfl := Option.some.inj hstep
        rcases carried_setPass h with hold | ⟨rfl, hnew⟩
        · exact .inl hold
        · rw [hpass]
          cases answer <;> exact .inl hnew
      · cases hstep
  | settle other now =>
      obtain ⟨_, hσ⟩ := Option.ite_none_right_eq_some.mp hstep
      obtain ⟨result, hresult, rfl⟩ := Option.map_eq_some_iff.mp hσ
      rcases carried_setPass h with hold | ⟨rfl, hnew⟩
      · exact .inl hold
      · exact .inl (carried_settlement hresult hnew)
  | fail other =>
      obtain ⟨pass, hpass, rfl⟩ := Option.map_eq_some_iff.mp hstep
      rcases carried_setPass h with hold | ⟨rfl, hnew⟩
      · exact .inl hold
      · exact .inl (carried_afterFailure hpass hnew)
  | crash other =>
      obtain rfl := Option.some.inj hstep
      rcases carried_setPass h with hold | ⟨_, hnew⟩
      · exact .inl hold
      · cases hnew

/-- Every receipt of every pass is in the store, with the payload it carries. -/
def Carried (σ : World) : Prop :=
  ∀ owner, ∀ receipt ∈ carried (σ.passes owner),
    Stores σ.receipts receipt.dedupeKey receipt.payloadJson

theorem carried_of_reachable (h : Reachable cfg σ) : Carried σ := by
  refine h.invariant ?_ fun σ e σ' hcarried hstep owner receipt hreceipt => ?_
  · intro owner receipt hreceipt
    cases hreceipt
  · rcases carried_of_step hstep hreceipt with hold | hclaimed
    · exact stores_of_step hstep (hcarried owner receipt hold)
    · exact stores_of_step hstep hclaimed

theorem stores_of_publishes (h : Reachable cfg σ) {receipt : Receipt}
    (hpublishes : publishes σ e = some receipt) :
    Stores σ.receipts receipt.dedupeKey receipt.payloadJson := by
  unfold publishes at hpublishes
  split at hpublishes
  · rename_i owner _ _
    split at hpublishes
    · rename_i first rest hpass
      obtain rfl := Option.some.inj hpublishes
      refine carried_of_reachable h owner first ?_
      rw [hpass]
      exact List.mem_cons_self
    · cases hpublishes
  · cases hpublishes

end Relays

section Acceptance

variable {s : Service} {env : Environment} {request : HttpRequest}
  {receipts receipts' : Receipts} {payload : PaymentWebhookPayload}
  {dedupeKey eventId : String} {indexable : List String → Bool}

theorem answer_accepted {reqId : String} {input : ReceiptRegistration}
    {result : Option RegistrationResult}
    (h : answer reqId payload.eventId input result = .accepted dedupeKey eventId) :
    input.dedupeKey = dedupeKey ∧
      ∃ r, result = some r ∧ r.accepted = true := by
  cases result with
  | none => cases h
  | some r =>
      cases haccepted : r.accepted with
      | true =>
          simp only [answer, haccepted] at h
          exact ⟨(Response.accepted.inj h).1, r, rfl, haccepted⟩
      | false =>
          simp only [answer, haccepted] at h
          cases h

theorem register_accepted {input : ReceiptRegistration} {now : Int}
    {result : RegistrationResult}
    (h : (register indexable receipts input now).1 = some result)
    (haccepted : result.accepted = true) :
    Stores (register indexable receipts input now).2 input.dedupeKey input.payloadJson := by
  unfold register at h ⊢
  split at h
  · cases h
  rename_i stored hstored
  obtain ⟨_, _, rfl⟩ := stored_cases hstored
  split at h
  · split at h
    · obtain rfl := Option.some.inj h
      cases haccepted
    · cases h
  · rename_i hrow
    split at h
    · cases h
    · rename_i hfree
      rw [if_neg hfree, Stores, Table.row_insertIfAbsent_of_none hrow]
      exact ⟨_, if_pos rfl, rfl⟩

theorem handle_accepted
    (hpayload : readPayload s env.clock request (requestId request env.newId) =
      .ok payload)
    (h : handle s indexable env request receipts = (.accepted dedupeKey eventId, receipts')) :
    ∃ input correlationId,
      receipts' = (register indexable receipts input env.databaseNow).2 ∧
      Stores receipts' dedupeKey (callbackEnvelope s payload correlationId) := by
  simp only [handle, hpayload] at h
  split at h
  · cases congrArg Prod.fst h
  · generalize hinput : registration s request payload _ = input at h
    obtain ⟨hanswer, hafter⟩ := Prod.mk.inj h
    obtain ⟨hkey, result, hresult, haccepted⟩ := answer_accepted hanswer
    have hjson : ∃ correlationId, input.payloadJson =
        callbackEnvelope s payload correlationId := hinput ▸ ⟨_, rfl⟩
    obtain ⟨correlationId, hjson⟩ := hjson
    unfold callRegister at hresult hafter
    cases hfailure : env.failure with
    | some error =>
        rw [hfailure] at hresult
        cases hresult
    | none =>
        rw [hfailure] at hresult hafter
        refine ⟨input, correlationId, hafter.symm, ?_⟩
        rw [← hafter, ← hkey, ← hjson]
        exact register_accepted hresult haccepted

theorem register_duplicate {input : ReceiptRegistration} {row : ReceiptRow} {now : Int}
    {result : RegistrationResult} (hrow : receipts.row input.dedupeKey = some row)
    (h : (register indexable receipts input now).1 = some result) :
    result = { accepted := false, publishStatus := row.publishStatus } := by
  unfold register at h
  split at h
  · cases h
  · simp only [hrow] at h
    split at h
    · exact (Option.some.inj h).symm
    · cases h

theorem handle_duplicate {json : Envelope PaymentCallbackConfirmedPayload}
    (hpayload : readPayload s env.clock request (requestId request env.newId) =
      .ok payload)
    (hstatus : toUpper s.unicodeToUpper payload.status = "CONFIRMED")
    (hkey : webhookDedupeKey s payload.paymentReference "CONFIRMED" = dedupeKey)
    (hstored : Stores receipts dedupeKey json)
    (hregistered : (callRegister indexable env receipts
      (registration s request payload "CONFIRMED")).1.isSome) :
    ∃ reason, (handle s indexable env request receipts).1 =
      .duplicate reason dedupeKey payload.eventId := by
  obtain ⟨row, hrow, _⟩ := hstored
  have hinput : (registration s request payload "CONFIRMED").dedupeKey = dedupeKey :=
    hkey
  generalize hregistration : registration s request payload "CONFIRMED" = input
    at hinput hregistered
  obtain ⟨result, hresult⟩ := Option.isSome_iff_exists.mp hregistered
  have hduplicate : result = { accepted := false, publishStatus := row.publishStatus } := by
    unfold callRegister at hresult
    split at hresult
    · cases hresult
    · exact register_duplicate (hinput ▸ hrow) hresult
  refine ⟨duplicateReason row.publishStatus, ?_⟩
  simp only [handle, hpayload, hstatus, hregistration, hresult, hduplicate, answer, hinput,
    ne_eq, not_true_eq_false, if_false, Bool.false_eq_true]

end Acceptance

end Modularis.Webhook.Payloads
