import Modularis.Payments.Reservation

namespace Modularis.Payments.Retry

open Modularis.Foundation.GoTime
open Modularis.Foundation.Program
open Modularis.Shared.Messaging
open Modularis.Payments.Models
open Modularis.Payments.Repository
open Modularis.Payments.Operations
open Modularis.Payments.Handlers
open Modularis.Payments.Changes
open Modularis.Payments.CallbackRun (Turn)
open Modularis.Payments.Decision (sampleStore samplePayment)
open Modularis.Payments.Reservation (sampleEnvelope turnsAt)
open Modularis.Payments.Redelivery (retryGateway afterAttempt leads_attempt)

/-- An error that is not `nil`, with its text and what it unwraps to. -/
inductive GoError where
  | gatewayError (message : String) (retryable : Bool)
  | text (message : String)
  | wrapped (message : String) (err : GoError)
  | joined (message : String) (errs : List GoError)

mutual

/-- `errors.As` with a target of type `GatewayError`: the field `Retryable` of the
first one in the tree of the error. -/
def GoError.asGatewayError : GoError → Option Bool
  | .gatewayError _ retryable => some retryable
  | .text _ => none
  | .wrapped _ err => err.asGatewayError
  | .joined _ errs => firstGatewayError errs

/-- What `errors.As` finds in a list: of the first gateway error, whether it is retryable. -/
def firstGatewayError : List GoError → Option Bool
  | [] => none
  | err :: errs =>
      match err.asGatewayError with
      | some retryable => some retryable
      | none => firstGatewayError errs

end

/-- The text of an error. -/
def GoError.error : GoError → String
  | .gatewayError message _ | .text message => message
  | .wrapped message _ | .joined message _ => message

/-- The error as `retry` tells it apart from others. -/
def GoError.processError (err : GoError) : ProcessError :=
  match err.asGatewayError with
  | some retryable => .gateway err.error retryable
  | none => .other err.error

/-- A gateway error that may go away. -/
def IsRetryable (result : Except GoError GatewayResult) : Prop :=
  ∃ err, result = .error err ∧ err.asGatewayError = some true

/-- The `k`-th call of the operation comes to `results k`; a pause lies between two
calls. -/
def answering (results : Nat → Except GoError GatewayResult)
    (choices : Nat → Choice) : Nat → Choice := fun n =>
  { choices n with processed := (results (n / 2 + 1)).mapError GoError.processError }

/-- The attempts at which the operation was called. -/
def attemptsOf (ops : List Op) : List Nat :=
  ops.filterMap fun
    | .process _ attempt => some attempt
    | _ => none

/-- What `retry` should make of the results.  The `k`-th call is the one at attempt
`k`, so the last one has the number of the calls. -/
structure Reports (attempts : Int) (results : Nat → Except GoError GatewayResult)
    (calls : List Nat) (returned : Except ProcessError (Option GatewayResult)) :
    Prop where
  nil_iff : (∃ value, returned = .ok value) ↔
    ∃ k : Nat, 1 ≤ k ∧ (k : Int) ≤ attempts ∧ (∃ result, results k = .ok result) ∧
      ∀ j, 1 ≤ j → j < k → IsRetryable (results j)
  last_error : ∀ error, returned = .error error → calls ≠ [] ∧
    ∃ err, results calls.length = .error err ∧ error = err.processError
  in_order : calls = List.range' 1 calls.length
  stops : ∀ j, 1 ≤ j → j < calls.length → IsRetryable (results j)
  bounded : (calls.length : Int) ≤ max attempts 0

section Loop

variable {attempts delay backoff : Int} {payment : Payment} {i : String}
  {request : Request} {choices : Nat → Choice} {store : Store}
  {results : Nat → Except ProcessError GatewayResult}

/-- From an attempt on the loop calls the operation up to attempt `last`. -/
structure EndsAt (attempts : Int) (results : Nat → Except ProcessError GatewayResult)
    (attempt last : Nat) (calls : List Nat)
    (returned : Except ProcessError (Option GatewayResult)) : Prop where
  first_le : attempt ≤ last
  last_le : (last : Int) ≤ attempts
  calls_eq : calls = List.range' attempt (last + 1 - attempt)
  returned_eq : returned = (results last).map some
  retried : ∀ j, attempt ≤ j → j < last →
    ∃ message, results j = .error (.gateway message true)
  final : (last : Int) = attempts ∨
    ¬ ∃ message, results last = .error (.gateway message true)

theorem endsAt_self {attempt : Nat} (hle : (attempt : Int) ≤ attempts)
    (hfinal : (attempt : Int) = attempts ∨
      ¬ ∃ message, results attempt = .error (.gateway message true)) :
    EndsAt attempts results attempt attempt [attempt] ((results attempt).map some) where
  first_le := le_rfl
  last_le := hle
  calls_eq := by rw [Nat.add_sub_cancel_left]; rfl
  returned_eq := rfl
  retried := fun j hge hlt => absurd hlt hge.not_gt
  final := hfinal

theorem EndsAt.cons {attempt last : Nat} {calls : List Nat} {message : String}
    {returned : Except ProcessError (Option GatewayResult)}
    (h : EndsAt attempts results (attempt + 1) last calls returned)
    (hresult : results attempt = .error (.gateway message true)) :
    EndsAt attempts results attempt last (attempt :: calls) returned where
  first_le := (Nat.le_succ attempt).trans h.first_le
  last_le := h.last_le
  calls_eq := by
    have hlength : last + 1 - attempt = last + 1 - (attempt + 1) + 1 := by
      have hlt := h.first_le
      omega
    rw [h.calls_eq, hlength, List.range'_succ]
  returned_eq := h.returned_eq
  retried := by
    intro j hge hlt
    rcases hge.eq_or_lt with rfl | hgt
    · exact ⟨message, hresult⟩
    · exact h.retried j hgt hlt
  final := h.final

theorem afterAttempt_final {attempt : Nat} (remaining : Nat)
    {result : Except ProcessError GatewayResult}
    (h : (attempt : Int) = attempts ∨
      ¬ ∃ message, result = .error (.gateway message true)) :
    afterAttempt attempts delay backoff payment attempt remaining result =
      pure (result.map some) := by
  match result with
  | .ok _ => rfl
  | .error (.other _) => rfl
  | .error (.gateway _ false) => rfl
  | .error (.gateway message true) =>
      exact if_pos (h.resolve_right fun hnot => hnot ⟨message, rfl⟩)

/-- The induction is on the attempts that remain; none remain only behind the last
one, where the loop has been left. -/
theorem endsAt_retryGateway (attempt remaining : Nat)
    (hremaining : (attempt : Int) + remaining = attempts + 1) (hpos : 0 < remaining)
    (hresults : ∀ n, (choices (2 * n)).processed = results (attempt + n)) :
    ∃ last, EndsAt attempts results attempt last
      (attemptsOf ((retryGateway attempts delay backoff payment attempt remaining).called
        (act i request) choices store))
      ((retryGateway attempts delay backoff payment attempt remaining).run
        (act i request) choices store).1 := by
  induction remaining generalizing attempt choices with
  | zero => exact absurd hpos (Nat.lt_irrefl 0)
  | succ remaining ih =>
      have hle : (attempt : Int) ≤ attempts := by omega
      have hact : act i request store (.process payment attempt) (choices 0) =
          (results attempt, store) := Prod.ext (hresults 0) rfl
      have hleads := leads_attempt attempts delay backoff attempt remaining hact pure
      rw [bind_pure, bind_pure] at hleads
      by_cases hfinal : (attempt : Int) = attempts ∨
          ¬ ∃ message, results attempt = .error (.gateway message true)
      · rw [afterAttempt_final remaining hfinal] at hleads
        refine ⟨attempt, ?_⟩
        rw [hleads.called, hleads.run]
        exact endsAt_self hle hfinal
      · obtain ⟨hlast, hretryable⟩ := not_or.mp hfinal
        obtain ⟨message, hresult⟩ := not_not.mp hretryable
        rw [hresult, afterAttempt, if_neg hlast] at hleads
        have hagain := hleads.trans (leads_call rfl)
        have hnext : ∀ n, (choices (2 * n + 2)).processed = results (attempt + 1 + n) := by
          intro n
          rw [Nat.add_right_comm]
          exact hresults (n + 1)
        obtain ⟨last, hends⟩ := @ih (fun n => choices (n + 2)) (attempt + 1) (by omega)
          (by omega) hnext
        refine ⟨last, ?_⟩
        rw [hagain.called, hagain.run]
        exact hends.cons hresult

end Loop

section Reports

variable {attempts delay backoff : Int} {payment : Payment} {i : String}
  {request : Request} {results : Nat → Except GoError GatewayResult}
  {choices : Nat → Choice} {store : Store}

theorem isRetryable_iff (result : Except GoError GatewayResult) :
    IsRetryable result ↔
      ∃ message, result.mapError GoError.processError = .error (.gateway message true) := by
  match result with
  | .ok _ => exact iff_of_false (by rintro ⟨_, ⟨⟩, _⟩) (by rintro ⟨_, ⟨⟩⟩)
  | .error err =>
      simp only [IsRetryable, Except.mapError, Except.error.injEq, exists_eq_left']
      rw [GoError.processError]
      cases err.asGatewayError with
      | none => simp
      | some retryable => simp

theorem EndsAt.reports {last : Nat} {calls : List Nat}
    {returned : Except ProcessError (Option GatewayResult)}
    (h : EndsAt attempts (fun k => (results k).mapError GoError.processError) 1 last calls
      returned) : Reports attempts results calls returned where
  nil_iff := by
    have hretried : ∀ j, 1 ≤ j → j < last → IsRetryable (results j) :=
      fun j hge hlt => (isRetryable_iff _).mpr (h.retried j hge hlt)
    rw [h.returned_eq]
    constructor
    · rintro ⟨value, hvalue⟩
      refine ⟨last, h.first_le, h.last_le, ?_, hretried⟩
      cases hlast : results last with
      | ok result => exact ⟨result, rfl⟩
      | error err =>
          rw [hlast] at hvalue
          cases hvalue
    · rintro ⟨k, hpos, hle, ⟨result, hresult⟩, hbefore⟩
      -- an earlier end would be with an error that is not retried, or too many calls
      obtain rfl : k = last := by
        rcases Nat.lt_trichotomy k last with hlt | heq | hgt
        · obtain ⟨message, hmessage⟩ := h.retried k hpos hlt
          rw [hresult] at hmessage
          cases hmessage
        · exact heq
        · rcases h.final with hlast | hfinal
          · omega
          · exact absurd ((isRetryable_iff _).mp (hbefore last h.first_le hgt)) hfinal
      exact ⟨some result, by rw [hresult]; rfl⟩
  last_error := by
    intro error herror
    have hlength : calls.length = last := by
      rw [h.calls_eq, List.length_range']
      exact Nat.add_sub_cancel last 1
    refine ⟨List.ne_nil_of_length_pos (hlength ▸ h.first_le), ?_⟩
    rw [h.returned_eq] at herror
    rw [hlength]
    cases hlast : results last with
    | ok result =>
        rw [hlast] at herror
        cases herror
    | error err =>
        rw [hlast] at herror
        cases herror
        exact ⟨err, rfl, rfl⟩
  in_order := by
    rw [h.calls_eq, List.length_range']
  stops := by
    intro j hge hlt
    rw [h.calls_eq, List.length_range', Nat.add_sub_cancel] at hlt
    exact (isRetryable_iff _).mpr (h.retried j hge hlt)
  bounded := by
    have hlast := h.last_le
    rw [h.calls_eq, List.length_range', Nat.add_sub_cancel]
    omega

/-- A run of `retry` reports what it should. -/
def RetryReports (attempts delay backoff : Int) (payment : Payment) (i : String)
    (request : Request) (results : Nat → Except GoError GatewayResult)
    (choices : Nat → Choice) (store : Store) : Prop :=
  let loop := retry attempts delay backoff fun attempt => call (.process payment attempt)
  Reports attempts results
    (attemptsOf (loop.called (act i request) (answering results choices) store))
    (loop.run (act i request) (answering results choices) store).1

/-- `retry` reports what it should if it may call its operation at all; else it
returns `nil` without a call. -/
theorem retryReports_iff (attempts delay backoff : Int) (payment : Payment) (i : String)
    (request : Request) (results : Nat → Except GoError GatewayResult)
    (choices : Nat → Choice) (store : Store) :
    RetryReports attempts delay backoff payment i request results choices store ↔
      1 ≤ attempts := by
  have hloop : retry attempts delay backoff
      (fun attempt => call (.process payment attempt)) =
        retryGateway attempts delay backoff payment 1 attempts.toNat := rfl
  rw [RetryReports, hloop]
  constructor
  · intro h
    by_contra hnone
    rw [Int.toNat_of_nonpos (by omega)] at h
    obtain ⟨k, hpos, hle, _⟩ := h.nil_iff.mp ⟨none, rfl⟩
    omega
  · intro hpos
    have hresults : ∀ n, (answering results choices (2 * n)).processed =
        (results (1 + n)).mapError GoError.processError := by
      intro n
      rw [answering, Nat.mul_div_cancel_left n Nat.two_pos, Nat.add_comm]
    have hremaining : ((1 : Nat) : Int) + attempts.toNat = attempts + 1 := by omega
    obtain ⟨last, hends⟩ : ∃ last, EndsAt attempts
        (fun k => (results k).mapError GoError.processError) 1 last _ _ :=
      endsAt_retryGateway 1 attempts.toNat hremaining (by omega) hresults
    exact hends.reports

end Reports

/-- The handler went on behind the gateway: it reserved the payment and announced
that, and it does not mark the payment as failed. -/
structure TreatsAsProcessed (payment : Payment) (exchanges : List (Exchange Reply)) :
    Prop where
  reserved : ∃ paymentId now,
    (⟨.reserveForProcessing paymentId now, .ok (some payment)⟩ : Exchange Reply) ∈
      exchanges
  announced : ∃ messages,
    (⟨.enqueueMessages payment.id messages, .ok ()⟩ : Exchange Reply) ∈ exchanges
  not_failed : ∀ exchange ∈ exchanges, ∀ paymentId reason messages,
    exchange.1 ≠ .markFailed paymentId reason messages

/-- A call of `gateway.Process` for the payment succeeded. -/
def ProcessedByGateway (payment : Payment) (exchanges : List (Exchange Reply)) : Prop :=
  ∃ attempt result,
    (⟨.process payment attempt, .ok result⟩ : Exchange Reply) ∈ exchanges

/-- In each run of `HandleProcessRequested`, with whatever the others do meanwhile. -/
def TrustsGateway (s : Service) : Prop :=
  ∀ (i : String) (envelope : Envelope PaymentProcessRequestedPayload)
    (turns : Nat → Turn) (store : Store) (payment : Payment),
    TreatsAsProcessed payment ((handleProcessRequested s envelope).transcript
      (disturbed (act i (.processRequested envelope))) turns store) →
    ProcessedByGateway payment ((handleProcessRequested s envelope).transcript
      (disturbed (act i (.processRequested envelope))) turns store)

theorem ProcessedByGateway.mono {payment : Payment}
    {exchanges exchanges' : List (Exchange Reply)} (h : ProcessedByGateway payment exchanges)
    (hsubset : exchanges ⊆ exchanges') : ProcessedByGateway payment exchanges' := by
  obtain ⟨attempt, result, hmem⟩ := h
  exact ⟨attempt, result, hsubset hmem⟩

section Handler

variable {s : Service} {envelope : Envelope PaymentProcessRequestedPayload}
  {payment : Payment}

theorem meets_retryGateway (attempts delay backoff : Int) (payment : Payment)
    (attempt remaining : Nat)
    (hremaining : (attempt : Int) + remaining = attempts + 1) (hpos : 0 < remaining) :
    (retryGateway attempts delay backoff payment attempt remaining).Meets
      fun exchanges value => (∃ result, value = .ok result) →
        ProcessedByGateway payment exchanges := by
  induction remaining generalizing attempt with
  | zero => exact absurd hpos (Nat.lt_irrefl 0)
  | succ remaining ih =>
      intro reply
      match reply with
      | .ok result => exact fun _ => ⟨attempt, result, List.mem_cons_self⟩
      | .error (.other _) => exact fun ⟨_, h⟩ => by cases h
      | .error (.gateway _ false) => exact fun ⟨_, h⟩ => by cases h
      | .error (.gateway _ true) =>
          change Meets (if _ then _ else _) _
          by_cases hlast : (attempt : Int) = attempts
          · rw [if_pos hlast]
            exact fun ⟨_, h⟩ => by cases h
          · rw [if_neg hlast]
            refine fun _ => (ih (attempt + 1) (by omega) (by omega)).mono ?_
            intro exchanges value hprocessed hok
            exact (hprocessed hok).mono fun exchange hmem =>
              List.mem_cons_of_mem _ (List.mem_cons_of_mem _ hmem)

theorem meets_concludeProcessing (error : ProcessError) :
    (concludeProcessing s envelope payment (.error error)).Meets fun exchanges _ =>
      ∃ exchange ∈ exchanges, ∃ reason messages,
        exchange.1 = .markFailed payment.id reason messages := by
  refine Meets.bind (meets_of_forall _ fun exchanges messages => ?_)
  intro reply
  have hmem : (⟨.markFailed payment.id error.message messages, reply⟩ : Exchange Reply) ∈
      exchanges ++ [⟨.markFailed payment.id error.message messages, reply⟩] :=
    List.mem_append_right _ (List.mem_singleton_self _)
  cases reply <;> exact ⟨_, hmem, error.message, messages, rfl⟩

theorem meets_processReserved (hattempts : 1 ≤ s.config.processingAttempts) :
    (processReserved s envelope payment).Meets fun exchanges _ =>
      (∃ messages, (⟨.enqueueMessages payment.id messages, .ok ()⟩ : Exchange Reply) ∈
        exchanges) →
      (∀ exchange ∈ exchanges, ∀ paymentId reason messages,
        exchange.1 ≠ .markFailed paymentId reason messages) →
      ProcessedByGateway payment exchanges := by
  have hcalls : (statusMessages s payment .processing payment.deliveryStatus
      envelope.correlationId envelope.messageId).Calls
        (fun op => ∀ messages, op ≠ .enqueueMessages payment.id messages) :=
    calls_statusMessages (by simp) (by simp) _ _ _ _ _
  refine Meets.bind (hcalls.meets.mono fun before messages hbefore => ?_)
  intro reply
  match reply with
  | .error error =>
      rintro ⟨messages', hmem⟩ _
      rcases List.mem_append.mp hmem with hmem | hmem
      · exact absurd rfl (hbefore _ hmem messages')
      · cases List.mem_singleton.mp hmem
  | .ok () =>
      have hremaining : ((1 : Nat) : Int) + s.config.processingAttempts.toNat =
          s.config.processingAttempts + 1 := by omega
      have hloop := meets_retryGateway s.config.processingAttempts
        s.config.processingDelay s.config.processingBackoff payment 1
        s.config.processingAttempts.toNat hremaining (by omega)
      refine Meets.bind (f := concludeProcessing s envelope payment)
        (hloop.mono fun calls value hprocessed => ?_)
      cases value with
      | error error =>
          refine (meets_concludeProcessing error).mono fun after _ hfailed _ hnone => ?_
          obtain ⟨exchange, hmem, reason, messages', heq⟩ := hfailed
          exact absurd heq (hnone exchange (by simp [hmem]) payment.id reason messages')
      | ok result =>
          refine meets_of_forall _ fun after _ _ _ => (hprocessed ⟨result, rfl⟩).mono ?_
          intro exchange hmem
          simp [hmem]

theorem meets_of_reserved {Q : List (Exchange Reply) → Prop}
    (h : (processReserved s envelope payment).Meets fun exchanges _ => Q exchanges) :
    (handleProcessRequested s envelope).Meets fun exchanges _ =>
      (∃ paymentId now,
        (⟨.reserveForProcessing paymentId now, .ok (some payment)⟩ : Exchange Reply) ∈
          exchanges) →
      ∃ now paymentId reply rest,
        exchanges = ⟨.timeNow, now⟩ :: ⟨.reserveForProcessing paymentId now, reply⟩ :: rest ∧
          Q rest := by
  -- the later calls reserve nothing, so the second one answered with the payment
  have hsecond : ∀ {now time : Int} {k paymentId : String} {reply : Except String (Option Payment)}
      {rest : List (Exchange Reply)}, (∀ exchange ∈ rest, lateCall exchange.1) →
      (⟨.reserveForProcessing paymentId time, .ok (some payment)⟩ : Exchange Reply) ∈
        (⟨.timeNow, now⟩ :: ⟨.reserveForProcessing k now, reply⟩ :: rest : List (Exchange Reply)) →
      reply = .ok (some payment) := by
    intro now time k paymentId reply rest hcalls hmem
    simp only [List.mem_cons] at hmem
    rcases hmem with heq | heq | hmem
    · cases heq
    · cases heq
      rfl
    · exact absurd hmem fun hlate => hcalls _ hlate
  rw [handleProcessRequested_eq]
  intro now reply
  match reply with
  | .error error =>
      rintro ⟨paymentId, time, hmem⟩
      simp at hmem
  | .ok none =>
      refine (calls_processMissed envelope now).meets.mono ?_
      rintro exchanges value hcalls ⟨paymentId, time, hmem⟩
      cases hsecond hcalls hmem
  | .ok (some found) =>
      by_cases hfound : payment = found
      · subst hfound
        exact h.mono fun exchanges value hQ _ =>
          ⟨now, envelope.payload.paymentId, _, exchanges, rfl, hQ⟩
      · refine (calls_processReserved envelope found).meets.mono ?_
        rintro exchanges value hcalls ⟨paymentId, time, hmem⟩
        cases hsecond hcalls hmem
        exact absurd rfl hfound

theorem trustsGateway_of_attempt (hattempts : 1 ≤ s.config.processingAttempts) :
    TrustsGateway s := by
  intro i envelope turns store payment htreats
  obtain ⟨now, paymentId, reply, rest, heq, hprocessed⟩ :=
    (meets_of_reserved (meets_processReserved hattempts)).of_run
      (disturbed (act i (.processRequested envelope))) turns store htreats.reserved
  rw [heq] at htreats ⊢
  obtain ⟨messages, hannounced⟩ := htreats.announced
  simp only [List.mem_cons] at hannounced
  refine (hprocessed ⟨messages, ?_⟩ fun exchange hmem => ?_).mono ?_
  · exact (hannounced.resolve_left (by rintro ⟨⟩)).resolve_left (by rintro ⟨⟩)
  · exact htreats.not_failed exchange (List.mem_cons_of_mem _ (List.mem_cons_of_mem _ hmem))
  · exact fun exchange hmem => List.mem_cons_of_mem _ (List.mem_cons_of_mem _ hmem)

theorem calls_processReserved_of_unattempted
    (envelope : Envelope PaymentProcessRequestedPayload) (payment : Payment)
    (hnone : s.config.processingAttempts < 1) :
    (processReserved s envelope payment).Calls fun op =>
      op = .timeNow ∨ op = .newString ∨
        ∃ messages, op = .enqueueMessages payment.id messages := by
  have hloop : retry s.config.processingAttempts s.config.processingDelay
      s.config.processingBackoff (fun attempt => call (.process payment attempt)) =
        pure (.ok none) := by
    rw [retry, Int.toNat_of_nonpos (by omega)]
    rfl
  refine (calls_statusMessages (by simp) (by simp) _ _ _ _ _).bind fun messages => ?_
  refine ⟨.inr (.inr ⟨messages, rfl⟩), fun reply => ?_⟩
  match reply with
  | .error _ => exact trivial
  | .ok () =>
      change Calls _ (retry _ _ _ _ >>= concludeProcessing s envelope payment)
      rw [hloop]
      change Calls _ (if _ then _ else _)
      split
      · exact (calls_pendingMessage (by simp) (by simp) _ _).bind fun message =>
          ⟨.inr (.inr ⟨[message], rfl⟩), fun _ => trivial⟩
      · exact trivial

def sampleReserved : Payment := (reserveUpdate minute).apply samplePayment

theorem not_trustsGateway (hnone : s.config.processingAttempts < 1) :
    ¬ TrustsGateway s := by
  have hreserved : ∃ paymentId now, (⟨.reserveForProcessing paymentId now,
      .ok (some sampleReserved)⟩ : Exchange Reply) ∈
        (handleProcessRequested s sampleEnvelope).transcript
          (disturbed (act "i-1" (.processRequested sampleEnvelope))) (turnsAt minute)
          sampleStore :=
    ⟨"payment-1", minute, .tail _ (.head _)⟩
  obtain ⟨now, paymentId, reply, rest, heq, hrest⟩ :=
    (meets_of_reserved (calls_processReserved_of_unattempted sampleEnvelope
      sampleReserved hnone).meets).of_run _ _ _ hreserved
  have hnever : ∀ exchange ∈ (handleProcessRequested s sampleEnvelope).transcript
      (disturbed (act "i-1" (.processRequested sampleEnvelope))) (turnsAt minute)
      sampleStore, (∀ payment attempt, exchange.1 ≠ .process payment attempt) ∧
        ∀ paymentId reason messages, exchange.1 ≠ .markFailed paymentId reason messages := by
    rw [heq]
    refine List.forall_mem_cons.mpr ⟨by simp, List.forall_mem_cons.mpr ⟨by simp, ?_⟩⟩
    intro exchange hmem
    rcases hrest exchange hmem with h | h | ⟨_, h⟩ <;> simp [h]
  intro htrusts
  obtain ⟨attempt, result, hmem⟩ := htrusts "i-1" sampleEnvelope (turnsAt minute)
    sampleStore sampleReserved
    { reserved := hreserved
      announced := ⟨_, .tail _ (.tail _ (.tail _ (.tail _ (.tail _ (.head _)))))⟩
      not_failed := fun exchange hmem => (hnever exchange hmem).2 }
  exact (hnever _ hmem).1 sampleReserved attempt rfl

end Handler

/-- `retry` reports success only for a success, and the handler processes a payment
only behind one, if and only if the configuration grants an attempt. -/
theorem retry_reports_iff (attempts delay backoff : Int) (payment : Payment) (i : String)
    (request : Request) (results : Nat → Except GoError GatewayResult)
    (choices : Nat → Choice) (store : Store) (s : Service) :
    (RetryReports attempts delay backoff payment i request results choices store ↔
      1 ≤ attempts) ∧
    (TrustsGateway s ↔ 1 ≤ s.config.processingAttempts) := by
  refine ⟨retryReports_iff attempts delay backoff payment i request results choices store,
    fun htrusts => ?_, trustsGateway_of_attempt⟩
  by_contra hnone
  exact not_trustsGateway (by omega) htrusts

section Sample

/-- The gateway fails for good. -/
def sampleResults : Nat → Except GoError GatewayResult := fun _ =>
  .error (.gatewayError "permanent" false)

def sampleChoices : Nat → Choice := fun n => (turnsAt minute n).1

/-- No attempt is granted: `retry` calls nothing and returns `nil`. -/
theorem nil_without_call :
    ¬ RetryReports 0 second 2 samplePayment "i-1" (.processRequested sampleEnvelope)
      sampleResults sampleChoices sampleStore := by
  intro h
  obtain ⟨k, hpos, hle, _⟩ := h.nil_iff.mp ⟨none, rfl⟩
  omega

end Sample

end Modularis.Payments.Retry
