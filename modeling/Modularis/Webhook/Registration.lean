import Modularis.Webhook.Payloads

namespace Modularis.Webhook.Registration

open Modularis.Foundation
open Modularis.Foundation.Column
open Modularis.Foundation.GoTime
open Modularis.Shared.Messaging
open Modularis.Shared.Text
open Modularis.Webhook.ReceiptStore
open Modularis.Webhook.Relay
open Modularis.Webhook.Handler

/-- A body that the handler registers. -/
structure Confirmed (s : Service) (payload : PaymentWebhookPayload) : Prop where
  valid : validateWebhookPayload payload = ""
  status : toUpper s.unicodeToUpper payload.status = "CONFIRMED"

/-- What the handler may call `Register` with. -/
def HandlerMade (s : Service) (input : ReceiptRegistration) : Prop :=
  ∃ request payload, Confirmed s payload ∧
    input = registration s request payload "CONFIRMED"

section References

variable {s : Service} {request request' : HttpRequest}
  {payload payload' : PaymentWebhookPayload}

/-- Under one key, both events address the payment of the receipt. -/
def NameOnePayment (input input' : ReceiptRegistration) : Prop :=
  input.dedupeKey = input'.dedupeKey →
    input.payloadJson.payload.paymentReference =
        input'.payloadJson.payload.paymentReference ∧
      input.payloadJson.payload.paymentReference = input.paymentReference ∧
      input'.payloadJson.payload.paymentReference = input'.paymentReference

/-- There is no white space around the reference. -/
def Trimmed (payload : PaymentWebhookPayload) : Prop :=
  trimSpace payload.paymentReference = payload.paymentReference

theorem webhookDedupeKey_inj {reference reference' : String} :
    webhookDedupeKey s reference "CONFIRMED" =
        webhookDedupeKey s reference' "CONFIRMED" ↔
      trimSpace reference = trimSpace reference' := by
  constructor
  · exact fun h => String.append_right_inj _ |>.mp h
  · intro h
    rw [webhookDedupeKey, webhookDedupeKey, h]

theorem nameOnePayment_of_trimmed (htrimmed : Trimmed payload)
    (htrimmed' : Trimmed payload') :
    NameOnePayment (registration s request payload "CONFIRMED")
      (registration s request' payload' "CONFIRMED") := by
  intro hkey
  refine ⟨?_, htrimmed.symm, htrimmed'.symm⟩
  calc
    payload.paymentReference = trimSpace payload.paymentReference := htrimmed.symm
    _ = trimSpace payload'.paymentReference := webhookDedupeKey_inj.mp hkey
    _ = payload'.paymentReference := htrimmed'

/-- The key and the column drop the white space around a reference and the event
keeps it. -/
theorem names_one_payment_iff (s : Service) (request request' : HttpRequest)
    (payload payload' : PaymentWebhookPayload) :
    NameOnePayment (registration s request payload "CONFIRMED")
        (registration s request' payload' "CONFIRMED") ↔
      (trimSpace payload.paymentReference = trimSpace payload'.paymentReference →
        Trimmed payload ∧ Trimmed payload') := by
  constructor
  · intro hnames hsame
    obtain ⟨_, htrimmed, htrimmed'⟩ := hnames (webhookDedupeKey_inj.mpr hsame)
    exact ⟨htrimmed.symm, htrimmed'.symm⟩
  · intro htrimmed hkey
    obtain ⟨h, h'⟩ := htrimmed (webhookDedupeKey_inj.mp hkey)
    exact nameOnePayment_of_trimmed h h' hkey

def samplePayload (paymentReference eventId : String) : PaymentWebhookPayload where
  eventId := eventId
  paymentReference := paymentReference
  amount := 100
  currency := "BRL"
  status := "CONFIRMED"
  occurredAt := "1970-01-01T00:01:00Z"

def sampleService : Service where
  config :=
    { publishRoutingKey := "payment.callback.confirmed"
      signatureHeader := "x-payment-signature"
      signatureSecret := "secret"
      webhookTolerance := 5 * minute
      maxBodyBytes := 1048576 }
  unicodeToUpper := id
  hmac := fun _ _ => [171]
  decode := fun _ => none

def sampleRequest : HttpRequest where
  method := "POST"
  header := fun _ => ""
  body := some []

/-- The key of `ref-1` with a blank before it is that of `ref-1`. -/
theorem blank_reference_takes_key :
    Confirmed sampleService (samplePayload " ref-1" "event-1") ∧
    Confirmed sampleService (samplePayload "ref-1" "event-2") ∧
    ¬ NameOnePayment
      (registration sampleService sampleRequest (samplePayload " ref-1" "event-1")
        "CONFIRMED")
      (registration sampleService sampleRequest (samplePayload "ref-1" "event-2")
        "CONFIRMED") := by
  refine ⟨⟨by decide, by decide⟩, ⟨by decide, by decide⟩, fun hnames => ?_⟩
  have hsame := (hnames (by decide)).1
  revert hsame
  decide

end References

section Calls

/-- The call of `Register` that a step makes, with its answer. -/
def callOf (cfg : Relay.Config) :
    World × Event → Option (ReceiptRegistration × Option RegistrationResult)
  | (σ, .register input now) =>
      some (input, (register cfg.indexable σ.receipts input now).1)
  | _ => none

/-- The registrations of a run, with what each returned. -/
def calls (cfg : Relay.Config) (trace : List (World × Event)) :
    List (ReceiptRegistration × Option RegistrationResult) := trace.filterMap (callOf cfg)

/-- The calls under a key, oldest first. -/
def callsFor (cfg : Relay.Config) (trace : List (World × Event)) (key : String) :
    List (ReceiptRegistration × Option RegistrationResult) :=
  (calls cfg trace).filter fun call => call.1.dedupeKey = key

/-- What a call of `Register` comes to. -/
inductive Registered (indexable : List String → Bool) (receipts : Receipts)
    (input : ReceiptRegistration) (now : Int) :
    Option RegistrationResult × Receipts → Prop
  | counted {row : ReceiptRow} : input.stored.isSome →
      receipts.row input.dedupeKey = some row → row.duplicateCount < 2147483647 →
      Registered indexable receipts input now
        (some { accepted := false, publishStatus := row.publishStatus },
          receipts.modify input.dedupeKey (countDuplicate now) (key_countDuplicate _))
  | inserted {stored : ReceiptRegistration} : input.stored = some stored →
      receipts.row input.dedupeKey = none →
      receipts.rows.any (clashes stored) = false → indexed indexable stored = true →
      Registered indexable receipts input now
        (some { accepted := true, publishStatus := .pending },
          receipts.insertIfAbsent (pendingRow stored now))
  | unstorable : input.stored = none →
      Registered indexable receipts input now (none, receipts)
  | uncountable {row : ReceiptRow} : receipts.row input.dedupeKey = some row →
      ¬ row.duplicateCount < 2147483647 →
      Registered indexable receipts input now (none, receipts)
  | refused {stored : ReceiptRegistration} : input.stored = some stored →
      receipts.row input.dedupeKey = none →
      receipts.rows.any (clashes stored) = true ∨ indexed indexable stored = false →
      Registered indexable receipts input now (none, receipts)

theorem registered (indexable : List String → Bool) (receipts : Receipts)
    (input : ReceiptRegistration) (now : Int) :
    Registered indexable receipts input now (register indexable receipts input now) := by
  unfold register
  cases hstored : input.stored with
  | none => exact .unstorable hstored
  | some stored =>
      cases hrow : receipts.row input.dedupeKey with
      | some row =>
          by_cases hcount : row.duplicateCount < 2147483647
          · simp only [if_pos hcount]
            exact .counted (Option.isSome_of_eq_some hstored) hrow hcount
          · simp only [if_neg hcount]
            exact .uncountable hrow hcount
      | none =>
          by_cases hrefused : receipts.rows.any (clashes stored) = true ∨
              indexed indexable stored = false
          · simp only [if_pos hrefused]
            exact .refused hstored hrow hrefused
          · simp only [if_neg hrefused]
            rw [not_or, Bool.not_eq_true, Bool.not_eq_false] at hrefused
            exact .inserted hstored hrow hrefused.1 hrefused.2

theorem status_of_registered {indexable : List String → Bool} {receipts : Receipts}
    {input : ReceiptRegistration} {now : Int} {result : RegistrationResult}
    (h : (register indexable receipts input now).1 = some result) :
    ∃ row, (register indexable receipts input now).2.row input.dedupeKey = some row ∧
      row.publishStatus = result.publishStatus := by
  have hregistered := registered indexable receipts input now
  generalize register indexable receipts input now = after at h hregistered
  cases hregistered with
  | @counted row _ hrow =>
      obtain rfl := Option.some.inj h
      refine ⟨countDuplicate now row, ?_, rfl⟩
      simp only [Table.row_modify, if_true, hrow, Option.map_some]
  | @inserted stored hstored hrow =>
      obtain rfl := Option.some.inj h
      have hkey : (pendingRow stored now).dedupeKey = input.dedupeKey :=
        dedupeKey_of_stored hstored
      exact ⟨_, (Table.row_insertIfAbsent_of_none (hkey ▸ hrow) _).trans (if_pos hkey.symm),
        rfl⟩
  | unstorable | uncountable | refused => cases h

/-- A call with the answer of a first one. -/
def Accepted (call : ReceiptRegistration × Option RegistrationResult) : Prop :=
  ∃ result, call.2 = some result ∧ result.accepted = true

/-- The registration met a row. -/
def Duplicate (call : ReceiptRegistration × Option RegistrationResult) : Prop :=
  ∃ result, call.2 = some result ∧ result.accepted = false

/-- What is stored under a key after the calls under it. -/
inductive Account : List (ReceiptRegistration × Option RegistrationResult) →
    Option ReceiptRow → Prop
  | unseen : Account [] none
  | seen {first : ReceiptRegistration × Option RegistrationResult}
      {later : List (ReceiptRegistration × Option RegistrationResult)}
      {row : ReceiptRow} : Accepted first → (∀ call ∈ later, Duplicate call) →
        row.payloadJson = first.1.payloadJson → row.duplicateCount = later.length →
        Account (first :: later) (some row)

/-- Each call is answered, the first one under a key with `accepted` and the
others with `duplicate`; the receipt of a key has the payload of the first and
counts the others; and the answer states the stored status. -/
structure ExactlyOnce (cfg : Relay.Config) (trace : List (World × Event)) (τ : World) :
    Prop where
  answered : ∀ call ∈ calls cfg trace, call.2 ≠ none
  account : ∀ key, Account (callsFor cfg trace key) (τ.receipts.row key)
  status : ∀ σ input now, (σ, Event.register input now) ∈ trace → ∀ result,
    (register cfg.indexable σ.receipts input now).1 = some result →
    ∃ row, (register cfg.indexable σ.receipts input now).2.row input.dedupeKey = some row ∧
      row.publishStatus = result.publishStatus

variable {cfg : Relay.Config}

theorem calls_snoc (trace : List (World × Event)) (p : World × Event) :
    calls cfg (trace ++ [p]) = calls cfg trace ++ (callOf cfg p).toList := by
  cases h : callOf cfg p <;> simp [calls, h]

theorem callsFor_snoc_register (trace : List (World × Event)) (σ : World)
    (input : ReceiptRegistration) (now : Int) (key : String) :
    callsFor cfg (trace ++ [(σ, .register input now)]) key =
      callsFor cfg trace key ++
        if input.dedupeKey = key then
          [(input, (register cfg.indexable σ.receipts input now).1)]
        else [] := by
  by_cases hkey : input.dedupeKey = key
  · simp [callsFor, calls, callOf, hkey]
  · simp [callsFor, calls, callOf, hkey]

theorem Account.accept {call : ReceiptRegistration × Option RegistrationResult}
    {row : ReceiptRow} (hcall : Accepted call)
    (hpayload : row.payloadJson = call.1.payloadJson)
    (hcount : row.duplicateCount = 0) : Account [call] (some row) :=
  .seen hcall (by simp) hpayload hcount

theorem Account.count {call : ReceiptRegistration × Option RegistrationResult}
    {before : List (ReceiptRegistration × Option RegistrationResult)}
    {row : ReceiptRow} (h : Account before (some row)) (hcall : Duplicate call)
    (now : Int) : Account (before ++ [call]) (some (countDuplicate now row)) := by
  cases h with
  | @seen first later _ hfirst hlater hpayload hcount =>
      have hlater' : ∀ other ∈ later ++ [call], Duplicate other := by
        intro other hother
        rcases List.mem_append.mp hother with hold | hnew
        · exact hlater other hold
        · rwa [List.mem_singleton.mp hnew]
      exact .seen hfirst hlater' hpayload (by simp [countDuplicate, hcount])

theorem Account.keep {before : List (ReceiptRegistration × Option RegistrationResult)}
    {row row' : ReceiptRow} (h : Account before (some row))
    (hpayload : row'.payloadJson = row.payloadJson)
    (hcount : row'.duplicateCount = row.duplicateCount) :
    Account before (some row') := by
  cases h with
  | seen hfirst hlater hpayload' hcount' =>
      exact .seen hfirst hlater (hpayload.trans hpayload') (hcount.trans hcount')

theorem account_register {trace : List (World × Event)} {σ : World}
    {input : ReceiptRegistration} {now : Int}
    (h : ∀ key, Account (callsFor cfg trace key) (σ.receipts.row key))
    (hanswer : (register cfg.indexable σ.receipts input now).1 ≠ none) (key : String) :
    Account (callsFor cfg (trace ++ [(σ, .register input now)]) key)
      ((register cfg.indexable σ.receipts input now).2.row key) := by
  rw [callsFor_snoc_register]
  have hbefore := h key
  have hregistered := registered cfg.indexable σ.receipts input now
  generalize register cfg.indexable σ.receipts input now = after at hanswer hregistered
  cases hregistered with
  | counted _ hrow _ =>
      rw [Table.row_modify]
      by_cases hkey : key = input.dedupeKey
      · subst hkey
        rw [if_pos rfl, if_pos rfl, hrow, Option.map_some]
        rw [hrow] at hbefore
        exact hbefore.count ⟨_, rfl, rfl⟩ now
      · rw [if_neg hkey, if_neg (Ne.symm hkey), List.append_nil]
        exact hbefore
  | @inserted stored hstored hrow =>
      obtain ⟨paymentStatus, _, rfl⟩ := stored_cases hstored
      have hnew : (pendingRow { input with paymentStatus := paymentStatus } now).dedupeKey =
          input.dedupeKey := rfl
      rw [Table.row_insertIfAbsent_of_none hrow, hnew]
      by_cases hkey : key = input.dedupeKey
      · subst hkey
        rw [if_pos rfl, if_pos rfl]
        rw [hrow] at hbefore
        generalize callsFor cfg trace input.dedupeKey = before at hbefore
        cases hbefore
        exact .accept ⟨_, rfl, rfl⟩ rfl rfl
      · rw [if_neg hkey, if_neg (Ne.symm hkey), List.append_nil]
        exact hbefore
  | unstorable | uncountable | refused => exact absurd rfl hanswer

theorem account_of_rowStep {σ : World} {e : Event}
    {key : String} {row row' : Option ReceiptRow}
    {before : List (ReceiptRegistration × Option RegistrationResult)}
    (he : ∀ input now, e ≠ .register input now) (h : Account before row)
    (hrow : RowStep cfg σ e key row row') : Account before row' := by
  cases hrow with
  | kept => exact h
  | inserted input _ now | counted input now => exact absurd rfl (he input now)
  | claimed | published | retried => exact h.keep rfl rfl

theorem callsFor_snoc_of_none {trace : List (World × Event)} {p : World × Event}
    (h : callOf cfg p = none) (key : String) :
    callsFor cfg (trace ++ [p]) key = callsFor cfg trace key := by
  simp [callsFor, calls, h]

theorem exactlyOnce_of_answered {trace : List (World × Event)} {τ : World}
    (hrun : Run cfg trace τ) (hanswered : ∀ call ∈ calls cfg trace, call.2 ≠ none) :
    ExactlyOnce cfg trace τ where
  answered := hanswered
  account := by
    induction hrun with
    | nil => exact fun _ => .unseen
    | @snoc trace σ τ e _ hstep ih =>
        have hbefore := ih fun call hcall => hanswered call
          (by rw [calls_snoc]; exact List.mem_append_left _ hcall)
        cases e with
        | register input now =>
            obtain ⟨_, hτ⟩ := Option.ite_none_right_eq_some.mp hstep
            obtain rfl := Option.some.inj hτ
            refine account_register hbefore (hanswered (input, _) ?_)
            simp [calls, callOf]
        | _ =>
            intro key
            rw [callsFor_snoc_of_none rfl]
            exact account_of_rowStep (by simp) (hbefore key)
              ((effect_of_step hstep).1 key)
  status := fun _ _ _ _ _ h => status_of_registered h

end Calls

/-- Postgres takes the texts of the call; an unseen key has room in the indexes and comes
with an event id that no receipt has, and the duplicates of a seen key can be counted. -/
structure Fits (cfg : Relay.Config) (receipts : Receipts) (input : ReceiptRegistration) :
    Prop where
  texts : ∀ text ∈ input.texts, isText text = true
  seen : ∀ row, receipts.row input.dedupeKey = some row → row.duplicateCount < 2147483647
  unseen : receipts.row input.dedupeKey = none → indexed cfg.indexable input = true ∧
    ∀ row ∈ receipts.rows, row.providerEventId ≠ input.providerEventId

section HandlerMade

variable {s : Service} {cfg : Relay.Config} {trace : List (World × Event)}
  {σ τ : World}

/-- The registrations of a run are the handler's. -/
def AllHandlerMade (s : Service) (trace : List (World × Event)) : Prop :=
  ∀ σ input now, (σ, Event.register input now) ∈ trace → HandlerMade s input

theorem HandlerMade.key {input : ReceiptRegistration} (h : HandlerMade s input) :
    input.dedupeKey = toUpper s.unicodeToUpper (trimSpace "CONFIRMED") ++ ":" ++
      input.paymentReference := by
  obtain ⟨request, payload, _, rfl⟩ := h
  rfl

theorem HandlerMade.providerEventId_ne {input : ReceiptRegistration}
    (h : HandlerMade s input) : input.providerEventId ≠ "" := by
  obtain ⟨request, payload, hconfirmed, rfl⟩ := h
  intro hempty
  have hempty : trimSpace payload.eventId = "" := hempty
  have hvalid := hconfirmed.valid
  rw [validateWebhookPayload, if_pos hempty] at hvalid
  revert hvalid
  decide

theorem HandlerMade.stored_eq {input : ReceiptRegistration} (h : HandlerMade s input) :
    input.stored = if input.texts.all isText then some input else none := by
  obtain ⟨request, payload, _, rfl⟩ := h
  have hstatus : varchar 32 "CONFIRMED" = some "CONFIRMED" := by decide
  have hmade : (registration s request payload "CONFIRMED").paymentStatus = "CONFIRMED" := rfl
  rw [ReceiptRegistration.stored, hmade, hstatus]
  rfl

/-- The columns that `Register` writes and nothing changes. -/
def registrationOf (row : ReceiptRow) : ReceiptRegistration where
  dedupeKey := row.dedupeKey
  paymentReference := row.paymentReference
  paymentStatus := row.paymentStatus
  providerEventId := row.providerEventId
  correlationId := row.correlationId
  messageId := row.messageId
  routingKey := row.routingKey
  payloadJson := row.payloadJson

theorem origin_of_rowStep {e : Event} {key : String} {old new : Option ReceiptRow}
    (hrow : RowStep cfg σ e key old new) {row : ReceiptRow} (hnew : new = some row) :
    (∃ input now, e = .register input now ∧ input.stored = some (registrationOf row)) ∨
      ∃ row', old = some row' ∧ registrationOf row' = registrationOf row := by
  cases hrow with
  | kept => exact .inr ⟨row, hnew, rfl⟩
  | inserted input stored now _ hstored =>
      obtain rfl := Option.some.inj hnew
      exact .inl ⟨input, now, rfl, hstored⟩
  | counted | claimed | published | retried =>
      obtain rfl := Option.some.inj hnew
      exact .inr ⟨_, rfl, rfl⟩

theorem origin_of_run (hrun : Run cfg trace τ) {key : String} {row : ReceiptRow}
    (hrow : τ.receipts.row key = some row) :
    ∃ σ input now, (σ, Event.register input now) ∈ trace ∧
      input.stored = some (registrationOf row) := by
  induction hrun generalizing row with
  | nil => cases hrow
  | @snoc trace σ τ e _ hstep ih =>
      rcases origin_of_rowStep ((effect_of_step hstep).1 key) hrow with
        ⟨input, now, rfl, hstored⟩ | ⟨row', hrow', hsame⟩
      · exact ⟨σ, input, now, List.mem_append_right _ (List.mem_singleton_self _), hstored⟩
      · obtain ⟨ρ, input, now, hmem, hstored⟩ := ih hrow'
        exact ⟨ρ, input, now, List.mem_append_left _ hmem, hsame ▸ hstored⟩

theorem registered_of_mem (hrun : Run cfg trace τ) (hmade : AllHandlerMade s trace)
    {e : Event} (hmem : (σ, e) ∈ trace) {key : String} {row : ReceiptRow}
    (hrow : σ.receipts.row key = some row) :
    ∃ ρ now, (ρ, Event.register (registrationOf row) now) ∈ trace := by
  obtain ⟨before, after, rfl⟩ := List.append_of_mem hmem
  obtain ⟨_, hbefore, _⟩ := hrun.split rfl
  obtain ⟨ρ, input, now, horigin, hstored⟩ := origin_of_run hbefore hrow
  have hregister := List.mem_append_left ((σ, e) :: after) horigin
  rw [(hmade ρ input now hregister).stored_eq] at hstored
  obtain ⟨_, hsame⟩ := Option.ite_none_right_eq_some.mp hstored
  exact ⟨ρ, now, Option.some.inj hsame ▸ hregister⟩

/-- Where no reference has white space around it, what is answered `duplicate` is
a confirmation of the payment that the stored event addresses. -/
theorem duplicate_names_payment (hrun : Run cfg trace τ)
    (hmade : ∀ σ input now, (σ, Event.register input now) ∈ trace →
      ∃ request payload, Confirmed s payload ∧ Trimmed payload ∧
        input = registration s request payload "CONFIRMED")
    {input : ReceiptRegistration} {now : Int}
    (hmem : (σ, Event.register input now) ∈ trace)
    (hduplicate : Duplicate (input, (register cfg.indexable σ.receipts input now).1)) :
    ∃ row, σ.receipts.row input.dedupeKey = some row ∧
      row.payloadJson.payload.paymentReference =
        input.payloadJson.payload.paymentReference := by
  obtain ⟨result, hresult, hnot⟩ := hduplicate
  have hregistered := registered cfg.indexable σ.receipts input now
  generalize register cfg.indexable σ.receipts input now = after at hregistered hresult
  cases hregistered with
  | @counted row _ hrow =>
      refine ⟨row, hrow, ?_⟩
      have hall : AllHandlerMade s trace := by
        intro ρ other now' hother
        obtain ⟨request, payload, hconfirmed, _, hinput⟩ := hmade ρ other now' hother
        exact ⟨request, payload, hconfirmed, hinput⟩
      obtain ⟨ρ, now', horigin⟩ := registered_of_mem hrun hall hmem hrow
      obtain ⟨request, payload, _, htrimmed, hinput⟩ := hmade ρ _ now' horigin
      obtain ⟨request', payload', _, htrimmed', rfl⟩ := hmade σ _ now hmem
      have hkey : (registrationOf row).dedupeKey =
          (registration s request' payload' "CONFIRMED").dedupeKey :=
        σ.receipts.key_row _ row hrow
      have hjson : row.payloadJson.payload.paymentReference =
          (registrationOf row).payloadJson.payload.paymentReference := rfl
      rw [hjson]
      rw [hinput] at hkey ⊢
      exact (nameOnePayment_of_trimmed htrimmed htrimmed' hkey).1
  | inserted =>
      obtain rfl := Option.some.inj hresult
      cases hnot
  | unstorable | uncountable | refused => cases hresult

theorem answered_iff_fits (hrows : ∀ key row, σ.receipts.row key = some row →
      HandlerMade s (registrationOf row)) {input : ReceiptRegistration}
    (hmade : HandlerMade s input) (now : Int) :
    (register cfg.indexable σ.receipts input now).1 ≠ none ↔
      Fits cfg σ.receipts input := by
  have hclash : σ.receipts.row input.dedupeKey = none → ∀ row ∈ σ.receipts.rows,
      (clashes input row = true ↔ row.providerEventId = input.providerEventId) := by
    intro hnone row hmem
    have hrow := (σ.receipts.mem_rows_iff row).mp hmem
    have hpayment : ¬ (row.paymentReference = input.paymentReference ∧
        row.paymentStatus = input.paymentStatus) := by
      rintro ⟨hreference, _⟩
      have hkey : row.dedupeKey = input.dedupeKey := by
        rw [hmade.key, ← hreference]
        exact (hrows _ row hrow).key
      rw [hkey, hnone] at hrow
      cases hrow
    simp [clashes, hpayment, hmade.providerEventId_ne]
  have htaken : ∀ {stored}, input.stored = some stored →
      (∀ text ∈ input.texts, isText text = true) ∧ stored = input := by
    intro stored hstored
    rw [hmade.stored_eq] at hstored
    obtain ⟨htexts, hsame⟩ := Option.ite_none_right_eq_some.mp hstored
    exact ⟨List.all_eq_true.mp htexts, (Option.some.inj hsame).symm⟩
  have hregistered := registered cfg.indexable σ.receipts input now
  generalize register cfg.indexable σ.receipts input now = after at hregistered
  cases hregistered with
  | counted hstored hrow hcount =>
      obtain ⟨stored, hstored⟩ := Option.isSome_iff_exists.mp hstored
      refine iff_of_true (by simp) ⟨(htaken hstored).1, fun other hother => ?_, fun hnone => ?_⟩
      · obtain rfl := Option.some.inj (hrow.symm.trans hother)
        exact hcount
      · cases hrow.symm.trans hnone
  | inserted hstored hrow hnone hindexed =>
      obtain ⟨htexts, rfl⟩ := htaken hstored
      refine iff_of_true (by simp) ⟨htexts, fun other hother => ?_, fun _ => ⟨hindexed, ?_⟩⟩
      · cases hrow.symm.trans hother
      intro row hmem hsame
      have hno := List.any_eq_false.mp hnone row hmem
      exact hno ((hclash hrow row hmem).mpr hsame)
  | unstorable hstored =>
      refine iff_of_false (by simp) fun hfits => ?_
      rw [hmade.stored_eq, if_pos (List.all_eq_true.mpr hfits.texts)] at hstored
      cases hstored
  | uncountable hrow hcount =>
      exact iff_of_false (by simp) fun hfits => hcount (hfits.seen _ hrow)
  | refused hstored hrow hrefused =>
      obtain ⟨_, rfl⟩ := htaken hstored
      refine iff_of_false (by simp) fun hfits => ?_
      obtain ⟨hindexed, hnew⟩ := hfits.unseen hrow
      rcases hrefused with hsome | hunindexed
      · obtain ⟨row, hmem, hclashes⟩ := List.any_eq_true.mp hsome
        exact hnew row hmem ((hclash hrow row hmem).mp hclashes)
      · rw [hindexed] at hunindexed
        cases hunindexed

theorem mem_calls {call : ReceiptRegistration × Option RegistrationResult} :
    call ∈ calls cfg trace ↔ ∃ σ now, (σ, Event.register call.1 now) ∈ trace ∧
      call.2 = (register cfg.indexable σ.receipts call.1 now).1 := by
  rw [calls, List.mem_filterMap]
  constructor
  · rintro ⟨⟨σ, e⟩, hmem, hcall⟩
    cases e with
    | register input now =>
        obtain rfl := Option.some.inj hcall
        exact ⟨σ, now, hmem, rfl⟩
    | _ => cases hcall
  · rintro ⟨σ, now, hmem, hanswer⟩
    exact ⟨_, hmem, by rw [callOf, ← hanswer]⟩

/-- The calls of the handler are total and exactly-once in a run exactly if Postgres takes
their values and no unseen key comes with the event id of a stored receipt. -/
theorem exactly_once_iff (hrun : Run cfg trace τ) (hmade : AllHandlerMade s trace) :
    ExactlyOnce cfg trace τ ↔ ∀ σ input now, (σ, Event.register input now) ∈ trace →
      Fits cfg σ.receipts input := by
  have hanswered : ∀ σ input now, (σ, Event.register input now) ∈ trace →
      ((register cfg.indexable σ.receipts input now).1 ≠ none ↔
        Fits cfg σ.receipts input) := by
    intro σ input now hmem
    refine answered_iff_fits (fun key row hrow => ?_) (hmade σ input now hmem) now
    obtain ⟨ρ, now', horigin⟩ := registered_of_mem hrun hmade hmem hrow
    exact hmade ρ _ now' horigin
  constructor
  · intro hexact σ input now hmem
    refine (hanswered σ input now hmem).mp (hexact.answered (input, _) ?_)
    exact mem_calls.mpr ⟨σ, now, hmem, rfl⟩
  · intro hfits
    refine exactlyOnce_of_answered hrun fun call hcall => ?_
    obtain ⟨σ, now, hmem, hanswer⟩ := mem_calls.mp hcall
    rw [hanswer]
    exact (hanswered σ call.1 now hmem).mpr (hfits σ call.1 now hmem)

end HandlerMade

section Sample

def sampleConfig : Relay.Config where
  relayLease := minute
  relayBatchSize := 50
  publishDelay := second
  publishBackoff := 2
  indexable := sampleIndexable

def sampleInput (paymentReference eventId : String) : ReceiptRegistration :=
  registration sampleService sampleRequest (samplePayload paymentReference eventId)
    "CONFIRMED"

/-- The relay claims the first receipt behind the first call. -/
def sampleEvents (inputs : List ReceiptRegistration) : List Event :=
  (inputs.take 1).map (.register · 0) ++
    [.wake "relay:1" 0, .claim "relay:1" (fun _ => false) 0] ++
    (inputs.drop 1).map (.register · 0)

def sampleTrace (inputs : List ReceiptRegistration) : List (World × Event) :=
  StepSystem.traceOf (step sampleConfig) World.init (sampleEvents inputs)

theorem allHandlerMade_sample {inputs : List ReceiptRegistration}
    (h : ∀ input ∈ inputs, HandlerMade sampleService input) :
    AllHandlerMade sampleService (sampleTrace inputs) := by
  intro σ input now hmem
  have hevent := StepSystem.event_mem_of_mem_traceOf hmem
  simp only [sampleEvents, List.mem_append, List.mem_map, List.mem_cons, List.not_mem_nil,
    or_false] at hevent
  rcases hevent with (⟨other, hother, he⟩ | he | he) | ⟨other, hother, he⟩
  · obtain ⟨rfl, _⟩ := Event.register.inj he
    exact h other (List.mem_of_mem_take hother)
  · cases he
  · cases he
  · obtain ⟨rfl, _⟩ := Event.register.inj he
    exact h other (List.mem_of_mem_drop hother)

theorem handlerMade_sample {paymentReference eventId : String}
    (h : Confirmed sampleService (samplePayload paymentReference eventId)) :
    HandlerMade sampleService (sampleInput paymentReference eventId) :=
  ⟨sampleRequest, _, h, rfl⟩

/-- Two events of one payment and one of another. -/
def sampleInputs : List ReceiptRegistration :=
  [sampleInput "ref-1" "event-1", sampleInput "ref-1" "event-2", sampleInput "ref-2" "event-3"]

theorem exactly_once_iff_sample : ∃ τ,
    Run sampleConfig (sampleTrace sampleInputs) τ ∧
    (calls sampleConfig (sampleTrace sampleInputs)).map (fun call => call.2) =
      [some { accepted := true, publishStatus := .pending },
        some { accepted := false, publishStatus := .inFlight },
        some { accepted := true, publishStatus := .pending }] ∧
    ∀ σ input now, (σ, Event.register input now) ∈ sampleTrace sampleInputs →
      Fits sampleConfig σ.receipts input := by
  obtain ⟨τ, hτ⟩ : ∃ τ, StepSystem.replay (step sampleConfig) World.init
    (sampleEvents sampleInputs) = some τ := ⟨_, rfl⟩
  have hrun : Run sampleConfig (sampleTrace sampleInputs) τ := StepSystem.run_of_replay hτ
  have hmade : AllHandlerMade sampleService (sampleTrace sampleInputs) := by
    refine allHandlerMade_sample ?_
    simp only [sampleInputs, List.forall_mem_cons, List.not_mem_nil, false_implies,
      implies_true, and_true]
    exact ⟨handlerMade_sample ⟨by decide, by decide⟩,
      handlerMade_sample ⟨by decide, by decide⟩, handlerMade_sample ⟨by decide, by decide⟩⟩
  have hanswers : (calls sampleConfig (sampleTrace sampleInputs)).map (fun call => call.2) =
      [some { accepted := true, publishStatus := .pending },
        some { accepted := false, publishStatus := .inFlight },
        some { accepted := true, publishStatus := .pending }] := by
    rfl
  have hanswered : ∀ call ∈ calls sampleConfig (sampleTrace sampleInputs),
      call.2 ≠ none := by
    intro call hcall hnone
    have hmem := List.mem_map_of_mem (f := fun call => call.2) hcall
    rw [hanswers, hnone] at hmem
    simp at hmem
  exact ⟨τ, hrun, hanswers,
    (exactly_once_iff hrun hmade).mp (exactlyOnce_of_answered hrun hanswered)⟩

/-- One event id with two payments: the second call fails. -/
theorem event_id_repeated : ∃ τ : World,
    Run sampleConfig (sampleTrace [sampleInput "ref-1" "event-1",
      sampleInput "ref-2" "event-1"]) τ ∧
    AllHandlerMade sampleService (sampleTrace
      [sampleInput "ref-1" "event-1", sampleInput "ref-2" "event-1"]) ∧
    ¬ ExactlyOnce sampleConfig (sampleTrace [sampleInput "ref-1" "event-1",
      sampleInput "ref-2" "event-1"]) τ := by
  obtain ⟨τ, hτ⟩ : ∃ τ, StepSystem.replay (step sampleConfig) World.init
    (sampleEvents [sampleInput "ref-1" "event-1", sampleInput "ref-2" "event-1"]) = some τ :=
    ⟨_, rfl⟩
  refine ⟨τ, StepSystem.run_of_replay hτ, ?_, fun hexact => ?_⟩
  · refine allHandlerMade_sample fun input hinput => ?_
    rcases List.mem_pair.mp hinput with rfl | rfl
    · exact handlerMade_sample ⟨by decide, by decide⟩
    · exact handlerMade_sample ⟨by decide, by decide⟩
  · have hcalls : (calls sampleConfig (sampleTrace [sampleInput "ref-1" "event-1",
        sampleInput "ref-2" "event-1"]))[1]? =
          some (sampleInput "ref-2" "event-1", none) := rfl
    exact hexact.answered _ (List.mem_of_getElem? hcalls) rfl

end Sample

end Modularis.Webhook.Registration
