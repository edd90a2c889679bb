import Modularis.Foundation.Histories
import Modularis.Payments.CallbackRun
import Modularis.Payments.Uniqueness

namespace Modularis.Payments.Replays

open Modularis.Foundation
open Modularis.Foundation.GoTime
open Modularis.Foundation.Program
open Modularis.Shared.Messaging
open Modularis.Shared.Text
open Modularis.Payments.Models
open Modularis.Payments.Repository
open Modularis.Payments.Operations
open Modularis.Payments.Handlers
open Modularis.Payments.Effects
open Modularis.Payments.Aggregate
open Modularis.Payments.Interleaving
open Modularis.Payments.CallbackRun (Turn)
open Modularis.Payments.Lifecycle (sampleService sampleCreate sampleChoice)
open Modularis.Payments.Uniqueness

/-- Both answers give the same intent; the statuses may differ. -/
structure Repeats (first again : PaymentIntentPayload) : Prop where
  replayed : again.replayed = true
  id : again.id = first.id
  paymentReference : again.paymentReference = first.paymentReference
  amount : again.amount = first.amount
  currency : again.currency = first.currency
  expiresAt : again.expiresAt = first.expiresAt
  qrCode : again.qrCode = first.qrCode
  qrCodeImageUrl : again.qrCodeImageUrl = first.qrCodeImageUrl

/-- A command was given nothing that the collection does not keep: its lookup
found the payment, or the intent has no QR code and the expiry no fraction of a
millisecond. -/
inductive Reproducible (s : Service) (idempotencyKey : String) :
    List (Store × Choice) → Prop
  | existing {lookup : Store × Choice} {rest : List (Store × Choice)} :
      (findByIdempotencyKey lookup.1.payments idempotencyKey).isSome →
      Reproducible s idempotencyKey (lookup :: rest)
  | created {lookup id reference clock gateway : Store × Choice}
      {rest : List (Store × Choice)} {intent : PaymentIntent} :
      gateway.2.intent = .ok intent → intent.qrCode = "" →
      intent.qrCodeImageUrl = "" →
      date (clock.2.now + s.config.paymentExpiration) =
        clock.2.now + s.config.paymentExpiration →
      Reproducible s idempotencyKey
        (lookup :: id :: reference :: clock :: gateway :: rest)

/-- The answer to a command on a store that others change meanwhile. -/
def answer (s : Service) (i : String)
    (envelope : Envelope PaymentCreateCommandPayload) (turns : Nat → Turn)
    (store : Store) : Envelope RpcResponse :=
  ((createPayment s envelope).run (disturbed (act i (.createPayment envelope))) turns
    store).1

section Times

theorem day_date (t : Int) : date t / day = t / day := by
  unfold date day second
  omega

theorem format_date_iff (t : Int) :
    formatRFC3339Nano (date t) = formatRFC3339Nano t ↔ date t = t := by
  refine ⟨fun h => ?_, congrArg _⟩
  simp only [formatRFC3339Nano, day_date, String.ofList_inj, List.append_assoc,
    List.append_cancel_left_eq, List.cons_append, List.cons.injEq, true_and] at h
  have hbelow (u : Int) : (u % day).toNat < 86400000000000 := by
    unfold day second
    omega
  have hclock := getClock_formatClock (hbelow (date t))
  rw [h, getClock_formatClock (hbelow t), Option.some.injEq, Prod.mk.injEq] at hclock
  have hday := day_date t
  have hsame := hclock.1
  unfold day second at hday hsame
  omega

end Times

section First

variable {s : Service} {i : String} {request : Request}
  {envelope : Envelope PaymentCreateCommandPayload} {met : List (Store × Choice)}

/-- The record that `CreatePayment` inserts once the gateway has answered. -/
def insertedPayment (s : Service) (payload : PaymentCreateCommandPayload)
    (intent : PaymentIntent) (id reference : String) (now : Int)
    (message : PendingMessage) : Payment :=
  { newPayment payload id reference (toUpper s.unicodeToUpper payload.currency)
      (now + s.config.paymentExpiration) with
    paymentReference := intent.reference
    pendingMessages := [message] }

/-- How a success answer to `CreatePayment` comes about. -/
inductive Source (s : Service) (i : String) (request : Request)
    (envelope : Envelope PaymentCreateCommandPayload) (met : List (Store × Choice))
    (data : PaymentIntentPayload) : Prop
  | found {lookup : Store × Choice} {rest : List (Store × Choice)}
      {existing : Payment} :
      met = lookup :: rest →
      findByIdempotencyKey lookup.1.payments envelope.payload.idempotencyKey =
        some existing →
      existing.requestHash = envelope.payload.requestHash →
      data = toIntentPayload existing true →
      Source s i request envelope met data
  | made {lookup id reference clock gateway create : Store × Choice}
      (before : List (Store × Choice)) {after : List (Store × Choice)}
      {intent : PaymentIntent} {message : PendingMessage} {payment created : Payment} :
      met = (lookup :: id :: reference :: clock :: gateway :: before) ++
        create :: after →
      findByIdempotencyKey lookup.1.payments envelope.payload.idempotencyKey =
        none →
      gateway.2.intent = .ok intent →
      payment = insertedPayment s envelope.payload intent id.2.newId
        reference.2.newId clock.2.now message →
      (∃ next, (createPayment s envelope).resume (act i request)
        (lookup :: id :: reference :: clock :: gateway :: before) =
          .call (.create payment) next) →
      (act i request create.1 (.create payment) create.2).1 = .ok created →
      data = withIntent (toIntentPayload created false) intent →
      Source s i request envelope met data

theorem payload_of_rpcResponse {response : RpcResponse} {reply : Envelope RpcResponse}
    (h : (rpcResponse envelope response).resume (act i request) met = .done reply) :
    reply.payload = response := by
  obtain ⟨_, _, rfl, hstring⟩ := resume_perform_bind h
  obtain ⟨_, _, rfl, hclock⟩ := resume_perform_bind hstring
  have hdone := hclock.symm.trans (resume_done _ _)
  rw [Program.done.inj hdone]
  rfl

theorem not_error {status : Nat} {title detail code : String}
    {reply : Envelope RpcResponse} {data : PaymentIntentPayload}
    (h : (rpcResponse envelope (.error status title detail code)).resume
      (act i request) met = .done reply) :
    reply.payload ≠ .success data := by
  rw [payload_of_rpcResponse h]
  simp

theorem source_of_done {reply : Envelope RpcResponse} {data : PaymentIntentPayload}
    (h : (createPayment s envelope).resume (act i request) met = .done reply)
    (hdata : reply.payload = .success data) : Source s i request envelope met data := by
  obtain ⟨lookup, rest, rfl, hrest⟩ := resume_perform_bind h
  cases hfailure : lookup.2.failure with
  | some error =>
      simp only [act, readCall, hfailure] at hrest
      exact absurd hdata (not_error hrest)
  | none =>
      cases hfind : findByIdempotencyKey lookup.1.payments
          envelope.payload.idempotencyKey with
      | some existing =>
          simp only [act, readCall, hfailure, hfind] at hrest
          split at hrest
          · exact absurd hdata (not_error hrest)
          · rename_i hhash
            have hanswer := hdata.symm.trans (payload_of_rpcResponse hrest)
            exact .found rfl hfind (not_not.mp hhash) (RpcResponse.success.inj hanswer)
      | none =>
          simp only [act, readCall, hfailure, hfind] at hrest
          split at hrest
          · exact absurd hdata (not_error hrest)
          · rename_i hcurrency
            obtain ⟨id, _, rfl, hid⟩ := resume_perform_bind hrest
            obtain ⟨reference, _, rfl, hreference⟩ := resume_perform_bind hid
            obtain ⟨clock, _, rfl, hclock⟩ := resume_perform_bind hreference
            obtain ⟨gateway, _, rfl, hgateway⟩ := resume_perform_bind hclock
            cases hintent : gateway.2.intent with
            | error error =>
                simp only [act, hintent] at hgateway
                exact absurd hdata (not_error hgateway)
            | ok intent =>
                simp only [act, hintent] at hgateway
                obtain ⟨occurred, _, rfl, hoccurred⟩ := resume_perform_bind hgateway
                obtain ⟨string, _, rfl, hstring⟩ := resume_perform_bind hoccurred
                obtain ⟨attempt, _, rfl, hattempt⟩ := resume_perform_bind hstring
                obtain ⟨create, after, rfl, hcreate⟩ := resume_perform_bind hattempt
                split at hcreate
                · exact absurd hdata (not_error hcreate)
                · rename_i created hcreated
                  have hanswer := hdata.symm.trans (payload_of_rpcResponse hcreate)
                  refine .made [occurred, string, attempt] rfl hfind hintent rfl ?_
                    hcreated (RpcResponse.success.inj hanswer)
                  simp only [createPayment, resume_perform_cons, act, readCall,
                    hfailure, hfind, if_neg hcurrency, hintent]
                  exact ⟨_, rfl⟩

theorem Source.append {data : PaymentIntentPayload} (more : List (Store × Choice))
    (h : Source s i request envelope met data) :
    Source s i request envelope (met ++ more) data := by
  cases h with
  | found hmet hfind hhash hdata =>
      subst hmet
      exact .found rfl hfind hhash hdata
  | made before hmet hfind hintent hpayment hstands hcreated hdata =>
      subst hmet
      exact .made before (List.append_assoc _ _ _) hfind hintent hpayment hstands
        hcreated hdata

theorem source_of_answered {trace : List (World × Event)} {world : World}
    {data : PaymentIntentPayload} (hrun : Run s trace world)
    (hanswered : Answered world i envelope (.success data)) :
    Source s i (.createPayment envelope) envelope (Pool.metBy i trace) data := by
  obtain ⟨reply, hinvocation, hreply⟩ := hanswered
  have hdone := Pool.resume_of_run hrun hinvocation
  obtain ⟨first, before, after, hmet, hfirst, hafter⟩ := resume_bind
    (f := fun response => pure (Answer.replied response)) hdone
  have hfirst' := Program.done.inj ((resume_done _ _).symm.trans hafter)
  obtain rfl := Answer.replied.inj hfirst'
  rw [hmet]
  exact (source_of_done hfirst hreply).append after

end First

section Later

variable {s : Service} {i : String} {envelope : Envelope PaymentCreateCommandPayload}
  {trace after : List (World × Event)} {world later : World}

theorem kept_between (hrun : Run s trace world) (hids : ∀ p ∈ trace, DrawsIds p.2)
    (hafter : StepSystem.Run (step s) world after later)
    (hids' : ∀ p ∈ after, DrawsIds p.2) : Kept world.shared later.shared := by
  have hdrawn : StepSystem.Run (Pool.step (program s) drawnAct) World.init trace world :=
    hrun.congr fun p hp => step_drawn (hids p hp)
  exact kept_of_run hdrawn.reachable
    (hafter.congr fun p hp => step_drawn (hids' p hp))

theorem kept_of_met (hrun : Run s trace world) (hids : ∀ p ∈ trace, DrawsIds p.2)
    {request : Request} {rest : Option (Program Answer)}
    (hi : world.invocations i = some { request := request, rest := rest })
    (before : List (Store × Choice)) {met : List (Store × Choice)} {m : Store × Choice}
    (hmet : Pool.metBy i trace = before ++ m :: met) {op : Op}
    {next : Reply op → Program Answer}
    (hop : (program s request).resume (act i request) before = .call op next) :
    Kept m.1 world.shared ∧ Kept (act i request m.1 op m.2).2 world.shared := by
  obtain ⟨past, future, v, u, rfl, hv, hpast, hstep, hu, hfuture⟩ :=
    Pool.acted_of_run hrun hi hmet hop
  have hpresent : StepSystem.Run (step s) v ([] ++ [(v, .act i m.2)]) u :=
    .snoc .nil hstep
  have hidsPast : ∀ p ∈ past, DrawsIds p.2 :=
    fun p hp => hids p (List.mem_append_left _ hp)
  have hidsRest : ∀ p ∈ (v, Pool.Event.act i m.2) :: future, DrawsIds p.2 :=
    fun p hp => hids p (List.mem_append_right _ hp)
  have hidsNow : ∀ p ∈ past ++ ([] ++ [(v, Pool.Event.act i m.2)]), DrawsIds p.2 := by
    intro p hp
    exact hids p (List.append_subset.mpr ⟨by simp, by simp⟩ hp)
  constructor
  · rw [← hv]
    exact kept_between hpast hidsPast (hpresent.append hfuture) hidsRest
  · rw [← hu]
    exact kept_between (hpast.append hpresent) hidsNow hfuture
      fun p hp => hidsRest p (List.mem_cons_of_mem _ hp)

theorem stored_of_create {σ : Store} {choice : Choice} {request : Request}
    {payment created : Payment}
    (h : (act i request σ (.create payment) choice).1 = .ok created) :
    created = stamped payment choice.newId choice.now ∧
      Stored (act i request σ (.create payment) choice).2 (Payment.stored created) := by
  rcases act_create payment choice with ⟨error, hact⟩ | ⟨hnew, hact⟩
  · rw [hact] at h
    cases h
  · rw [hact] at h ⊢
    obtain rfl := Except.ok.inj h
    refine ⟨rfl, ?_⟩
    have hrow : σ.payments.row (Payment.stored
      (stamped payment choice.newId choice.now)).id = none := (not_duplicate hnew).1
    rw [create, hnew, if_neg Bool.false_ne_true]
    exact (stored_created hrow _).mpr (.inl rfl)

theorem find_of_stored {σ : Store} {payment : Payment} {idempotencyKey : String}
    (hunique : UniqueKeys σ) (hstored : Stored σ payment)
    (hkey : payment.idempotencyKey = idempotencyKey) :
    findByIdempotencyKey σ.payments idempotencyKey = some payment := by
  cases hfind : findByIdempotencyKey σ.payments idempotencyKey with
  | none =>
      have hnone := List.find?_eq_none.mp hfind payment
        ((σ.payments.mem_rows_iff payment).mpr hstored)
      exact absurd (decide_eq_true hkey) hnone
  | some other =>
      have hother := (σ.payments.mem_rows_iff other).mp (List.mem_of_find?_eq_some hfind)
      have hsame := List.find?_some hfind
      rw [hunique other payment hother hstored
        ((of_decide_eq_true hsame).trans hkey.symm)]

theorem answer_of_found {σ : Store} {turns : Nat → Turn} {payment : Payment}
    (hworking : (turns 0).1.failure = none)
    (hfind : findByIdempotencyKey σ.payments envelope.payload.idempotencyKey =
      some payment)
    (hhash : payment.requestHash = envelope.payload.requestHash) :
    (answer s i envelope turns σ).payload = .success (toIntentPayload payment true) := by
  have hread : disturbed (act i (.createPayment envelope)) σ
      (.findByIdempotencyKey envelope.payload.idempotencyKey) (turns 0) =
        (.ok (some payment), (turns 0).2 σ) := by
    simp only [disturbed, act, readCall, hworking, hfind]
  rw [answer, createPayment, run_perform_bind hread]
  simp only [hhash, ne_eq, not_true_eq_false, if_false]
  rfl

theorem repeats_of_same {p q : Payment} {data : PaymentIntentPayload}
    (h : SameIdentity p q) :
    Repeats data (toIntentPayload q true) ↔ Repeats data (toIntentPayload p true) := by
  have heq : ∀ r : Payment, Repeats data (toIntentPayload r true) ↔
      r.id = data.id ∧ r.paymentReference = data.paymentReference ∧
        r.amount = data.amount ∧ r.currency = data.currency ∧
        formatRFC3339Nano r.expiresAt = data.expiresAt ∧ "" = data.qrCode ∧
        "" = data.qrCodeImageUrl := by
    intro r
    constructor
    · rintro ⟨_, hid, hreference, hamount, hcurrency, hexpiry, hcode, hurl⟩
      exact ⟨hid, hreference, hamount, hcurrency, hexpiry, hcode, hurl⟩
    · rintro ⟨hid, hreference, hamount, hcurrency, hexpiry, hcode, hurl⟩
      exact ⟨rfl, hid, hreference, hamount, hcurrency, hexpiry, hcode, hurl⟩
  rw [heq, heq, h.id, h.paymentReference, h.amount, h.currency, h.expiresAt]

/-- The record of a new payment repeats its first answer but for the QR code and
what the expiry loses. -/
theorem repeats_created_iff {created : Payment} {intent : PaymentIntent}
    (hreference : created.paymentReference = intent.reference) :
    Repeats (withIntent (toIntentPayload created false) intent)
        (toIntentPayload (Payment.stored created) true) ↔
      intent.qrCode = "" ∧ intent.qrCodeImageUrl = "" ∧
        date created.expiresAt = created.expiresAt := by
  constructor
  · rintro ⟨_, _, _, _, _, hexpiry, hcode, hurl⟩
    exact ⟨hcode.symm, hurl.symm, (format_date_iff _).mp hexpiry⟩
  · rintro ⟨hcode, hurl, hexpiry⟩
    exact ⟨rfl, rfl, hreference, rfl, rfl, (format_date_iff _).mpr hexpiry,
      hcode.symm, hurl.symm⟩

theorem remembered_of_answered {data : PaymentIntentPayload} (hrun : Run s trace world)
    (hids : ∀ p ∈ trace, DrawsIds p.2)
    (hanswered : Answered world i envelope (.success data)) :
    ∃ σ p, Kept σ world.shared ∧ Stored σ p ∧
      p.idempotencyKey = envelope.payload.idempotencyKey ∧
      p.requestHash = envelope.payload.requestHash ∧
      (Repeats data (toIntentPayload p true) ↔
        Reproducible s envelope.payload.idempotencyKey (Pool.metBy i trace)) := by
  obtain ⟨reply, hinvocation, _⟩ := id hanswered
  cases source_of_answered hrun hanswered with
  | @found lookup rest existing hmet hfind hhash hdata =>
      have hkept := kept_of_met hrun hids hinvocation [] hmet rfl
      have hkey := List.find?_some hfind
      refine ⟨lookup.1, existing, hkept.1, (lookup.1.payments.mem_rows_iff _).mp
        (List.mem_of_find?_eq_some hfind), of_decide_eq_true hkey, hhash, ?_⟩
      rw [hmet, hdata]
      exact iff_of_true ⟨rfl, rfl, rfl, rfl, rfl, rfl, rfl, rfl⟩
        (.existing (by rw [hfind]; rfl))
  | @made lookup id reference clock gateway create before after intent message payment
      created hmet hfind hintent hpayment hstands hcreated hdata =>
      obtain ⟨next, hstands⟩ := hstands
      have hkept := kept_of_met hrun hids hinvocation _ hmet
        (resume_bind_of_call (fun response => pure (Answer.replied response)) hstands)
      obtain ⟨rfl, hstored⟩ := stored_of_create hcreated
      subst hpayment
      refine ⟨_, _, hkept.2, hstored, rfl, rfl, ?_⟩
      rw [hmet, hdata, repeats_created_iff rfl]
      constructor
      · rintro ⟨hcode, hurl, hexpiry⟩
        exact .created hintent hcode hurl hexpiry
      · intro hreproducible
        cases hreproducible with
        | existing hsome => simp [hfind] at hsome
        | created hintent' hcode hurl hexpiry =>
            obtain rfl := Except.ok.inj (hintent'.symm.trans hintent)
            exact ⟨hcode, hurl, hexpiry⟩

end Later

/-- A repetition in any later state gives the intent of a success answer again
exactly if the command was given nothing that the collection does not keep. -/
theorem repeats_iff (s : Service) {trace : List (World × Event)} {world : World}
    (hrun : Run s trace world) (hids : ∀ p ∈ trace, DrawsIds p.2) {i : String}
    {envelope : Envelope PaymentCreateCommandPayload} {data : PaymentIntentPayload}
    (hanswered : Answered world i envelope (.success data))
    {after : List (World × Event)} {later : World}
    (hafter : StepSystem.Run (step s) world after later)
    (hids' : ∀ p ∈ after, DrawsIds p.2) (j : String)
    {repetition : Envelope PaymentCreateCommandPayload}
    (hkey : repetition.payload.idempotencyKey = envelope.payload.idempotencyKey)
    (hhash : repetition.payload.requestHash = envelope.payload.requestHash)
    {turns : Nat → Turn} (hworking : (turns 0).1.failure = none) :
    (∃ again, (answer s j repetition turns later.shared).payload = .success again ∧
      Repeats data again) ↔
      Reproducible s envelope.payload.idempotencyKey (Pool.metBy i trace) := by
  obtain ⟨σ, p, hkept, hp, hpkey, hphash, hiff⟩ :=
    remembered_of_answered hrun hids hanswered
  obtain ⟨q, hq, hsame⟩ := (hkept.trans (kept_between hrun hids hafter hids')) p hp
  have hdrawn : StepSystem.Run (Pool.step (program s) drawnAct) World.init
      (trace ++ after) later :=
    (hrun.append hafter).congr fun p hp => step_drawn <|
      (List.mem_append.mp hp).elim (hids p) (hids' p)
  have hfind := find_of_stored (sound_of_reachable hdrawn.reachable).inv hq
    ((hsame.idempotencyKey.trans hpkey).trans hkey.symm)
  have hanswer := answer_of_found (s := s) (i := j) hworking hfind
    ((hsame.requestHash.trans hphash).trans hhash.symm)
  rw [← hiff, ← repeats_of_same hsame, hanswer]
  constructor
  · rintro ⟨again, hagain, hrepeats⟩
    exact RpcResponse.success.inj hagain ▸ hrepeats
  · exact fun hrepeats => ⟨_, rfl, hrepeats⟩

section Sample

def sampleRun (choice : Choice) : List Event :=
  .start "i-1" sampleCreate :: List.replicate 11 (.act "i-1" choice)

/-- Nobody else acts. -/
def alone (choice : Choice) : Nat → Turn := fun _ => (choice, id)

theorem alone_working (choice : Choice) (h : choice.failure = none) :
    (alone choice 0).1.failure = none := h

theorem drawsIds_sample {choice : Choice} (h : choice.newId ≠ "") {world : World} :
    ∀ p ∈ StepSystem.traceOf (step sampleService) world (sampleRun choice),
      DrawsIds p.2 := by
  intro p hp
  have hevent := StepSystem.event_mem_of_mem_traceOf hp
  simp only [sampleRun, List.mem_cons, List.mem_replicate] at hevent
  rcases hevent with hstart | ⟨_, hact⟩
  · rw [hstart]
    trivial
  · rw [hact]
    exact h

theorem repeats_iff_sample : ∃ (trace : List (World × Event)) (world : World)
    (envelope : Envelope PaymentCreateCommandPayload) (data : PaymentIntentPayload),
    Run sampleService trace world ∧ Answered world "i-1" envelope (.success data) ∧
    ((∃ again, (answer sampleService "i-2" envelope (alone sampleChoice)
        world.shared).payload = .success again ∧ Repeats data again) ↔
      Reproducible sampleService "key-1" (Pool.metBy "i-1" trace)) := by
  obtain ⟨world, hworld, envelope, data, hanswered, hkey⟩ : ∃ world,
      StepSystem.replay (step sampleService) World.init (sampleRun sampleChoice) =
        some world ∧
      ∃ envelope data, Answered world "i-1" envelope (.success data) ∧
        envelope.payload.idempotencyKey = "key-1" :=
    ⟨_, rfl, _, _, ⟨_, rfl, rfl⟩, rfl⟩
  have hrun := StepSystem.run_of_replay hworld
  have hiff := repeats_iff sampleService hrun (drawsIds_sample (by decide)) hanswered
    .nil (by simp) "i-2" rfl rfl (alone_working sampleChoice rfl)
  exact ⟨_, world, envelope, data, hrun, hanswered, hkey ▸ hiff⟩

/-- The gateway of the service gives every intent a QR code. -/
def mockChoice : Choice :=
  { sampleChoice with
    intent := .ok
      { reference := "ref-1"
        qrCode := "000201010212modularis-ref-1-100.00"
        qrCodeImageUrl := "https://payments.mock.local/qrcode/cmVmLTE" } }

theorem qrCode_not_repeated : ∃ (trace : List (World × Event)) (world : World)
    (envelope : Envelope PaymentCreateCommandPayload) (data : PaymentIntentPayload),
    Run sampleService trace world ∧ (∀ p ∈ trace, DrawsIds p.2) ∧
    Answered world "i-1" envelope (.success data) ∧
    ¬ ∃ again, (answer sampleService "i-2" envelope (alone mockChoice)
      world.shared).payload = .success again ∧ Repeats data again := by
  obtain ⟨world, hworld, envelope, data, hanswered, hcode, hlost⟩ : ∃ world,
      StepSystem.replay (step sampleService) World.init (sampleRun mockChoice) =
        some world ∧
      ∃ envelope data, Answered world "i-1" envelope (.success data) ∧
        data.qrCode ≠ "" ∧
        ∀ again, (answer sampleService "i-2" envelope (alone mockChoice)
          world.shared).payload = .success again → again.qrCode = "" :=
    ⟨_, rfl, _, _, ⟨_, rfl, rfl⟩, by decide, by rintro again ⟨⟩; rfl⟩
  refine ⟨_, world, envelope, data, StepSystem.run_of_replay hworld,
    drawsIds_sample (by decide), hanswered, ?_⟩
  rintro ⟨again, hagain, hrepeats⟩
  exact hcode (hrepeats.qrCode.symm.trans (hlost again hagain))

end Sample

end Modularis.Payments.Replays
