import Mathlib.Data.Rat.Defs

namespace Modularis.Onboarding.Contracts

/-- A user, as the identity service shows it. -/
structure UserPayload where
  id : String
  email : String
  name : String
  isPremium : Bool
deriving DecidableEq, Repr

/-- The data of a created user. -/
structure UserCreateResponsePayload where
  user : UserPayload
  replayed : Bool
deriving DecidableEq, Repr

/-- A payment, as clients see it. A JSON number is the rational it denotes. -/
structure PublicPaymentIntentPayload where
  id : String
  paymentReference : String
  amount : Rat
  currency : String
  paymentStatus : String
  deliveryStatus : String
  expiresAt : String
  qrCode : String
  qrCodeImageUrl : Option String
deriving DecidableEq, Repr

/-- A payment, as the payment service answers. -/
structure PaymentIntentPayload extends PublicPaymentIntentPayload where
  replayed : Bool
deriving DecidableEq, Repr

/-- The data of a compensation. -/
structure CompensationResultPayload where
  compensated : Bool
  replayed : Bool
deriving DecidableEq, Repr

/-- What the gateway asks for. -/
structure OnboardingAccountCreateCommandPayload where
  idempotencyKey : String
  requestHash : String
  email : String
  name : String
  cellphone : String
  taxId : String
  amount : Rat
  currency : String
deriving DecidableEq, Repr

/-- The part of a message envelope that its receiver reads. -/
structure MessageEnvelope (π : Type) where
  messageId : String
  correlationId : String
  payload : π
deriving DecidableEq, Repr

/-- An `onboarding.account.create` command. -/
abbrev CreateCommand := MessageEnvelope OnboardingAccountCreateCommandPayload

/-- What the identity service is asked for. -/
structure UserCreateCommandPayload where
  idempotencyKey : String
  requestHash : String
  email : String
  name : String
  cellphone : String
  taxId : String
deriving DecidableEq, Repr

/-- What the payment service is asked for. -/
structure PaymentCreateCommandPayload where
  idempotencyKey : String
  requestHash : String
  userId : String
  customerName : String
  customerEmail : String
  customerCellphone : String
  customerTaxId : String
  amount : Rat
  currency : String
deriving DecidableEq, Repr

/-- The user that the identity service is to undo, and why. -/
structure UserCompensationCommandPayload where
  idempotencyKey : String
  userId : String
  reason : String
deriving DecidableEq, Repr

/-- The `meta` of a response. -/
structure ResponseMeta where
  correlationId : String
  idempotencyKey : String
  replayed : Bool
deriving DecidableEq, Repr

/-- The answer to a created account. -/
structure CreateAccountResponse where
  user : UserPayload
  payment : PublicPaymentIntentPayload
  metadata : ResponseMeta
deriving DecidableEq, Repr

/-- An error, as it is stored and sent. -/
structure ProblemSnapshot where
  status : Int
  title : String
  detail : String
  code : Option String
deriving DecidableEq, Repr

/-- The answer of a service. -/
inductive RpcResponse (α : Type) where
  | success (data : α)
  | failure (error : ProblemSnapshot)
deriving DecidableEq, Repr

/-- The exception classes of the HTTP layer that the service tells apart. -/
inductive HttpException where
  | badRequest
  | conflict
  | badGateway
deriving DecidableEq, Repr

/-- The status of each exception class. -/
def HttpException.getStatus : HttpException → Int
  | .badRequest => 400
  | .conflict => 409
  | .badGateway => 502

/-- The plain errors that the saga code throws itself. -/
inductive SagaError where
  | paymentWithoutUser
  | compensationWithoutUser
  | snapshotIncomplete
  | notLocked
  | missingProblem
deriving DecidableEq, Repr

/-- The texts of the errors. -/
def SagaError.message : SagaError → String
  | .paymentWithoutUser => "Saga cannot create payment without a user snapshot"
  | .compensationWithoutUser => "Saga cannot compensate without a user snapshot"
  | .snapshotIncomplete => "Saga snapshot is incomplete"
  | .notLocked => "Saga is not locked by the current worker"
  | .missingProblem => "Cannot read properties of null (reading 'status')"

/-- A thrown value: an HTTP exception with its body, an object shaped like an
RPC error response, an error of the saga code, any other `Error`, or a value
that is none of these. -/
inductive Thrown where
  | http (exception : HttpException) (body : ProblemSnapshot)
  | problemResponse (error : ProblemSnapshot)
  | sagaError (error : SagaError)
  | error (message : String)
  | other
deriving DecidableEq, Repr

/-- What the promise of `rabbitBus.sendRpc` settles with; a timeout, a channel
that is not ready and an unreadable reply are rejections. -/
inductive RpcOutcome (α : Type) where
  | resolved (response : RpcResponse α)
  | rejected (reason : Thrown)
deriving DecidableEq, Repr

/-- A 502 about another service. -/
def downStreamProblem (detail code : String) : ProblemSnapshot where
  status := 502
  title := "Bad Gateway"
  detail := detail
  code := some code

/-- What is stored of an error that names no problem. -/
def dependentServiceUnavailable : ProblemSnapshot :=
  downStreamProblem "A dependent service is temporarily unavailable."
    "DOWNSTREAM_UNAVAILABLE"

/-- An exception with the status 409. -/
def conflict (detail code : String) : Thrown :=
  .http .conflict
    { status := 409, title := "Conflict", detail := detail, code := some code }

/-- The key was used for another request. -/
def idempotencyKeyReused : Thrown :=
  conflict "Idempotency-Key was already used with a different payload"
    "IDEMPOTENCY_KEY_REUSED"

/-- Another worker has the saga. -/
def sagaInProgress : Thrown :=
  conflict "account creation is already in progress for this Idempotency-Key"
    "SAGA_IN_PROGRESS"

/-- The saga is in a state that the loop does not know. -/
def sagaStateInvalid : Thrown :=
  .http .badGateway
    { status := 502
      title := "Bad Gateway"
      detail := "The onboarding request reached an unexpected state."
      code := some "SAGA_STATE_INVALID" }

/-- The exception that shows a stored problem; any other status is shown as a 502. -/
def toException (problem : ProblemSnapshot) : Thrown :=
  if problem.status = 400 then .http .badRequest problem
  else if problem.status = 409 then .http .conflict problem
  else .http .badGateway problem

/-- `toException(saga.error!)`: reading the status of a missing error throws. -/
def toExceptionOf : Option ProblemSnapshot → Thrown
  | some problem => toException problem
  | none => .sagaError .missingProblem

/-- The body, with the status of its exception. -/
def extractProblemFromException (exception : HttpException)
    (body : ProblemSnapshot) : ProblemSnapshot :=
  { body with status := exception.getStatus }

/-- The problem of an exception. -/
def toProblem : Thrown → ProblemSnapshot
  | .http exception body => extractProblemFromException exception body
  | .problemResponse error => error
  | .sagaError _ => dependentServiceUnavailable
  | .error _ => dependentServiceUnavailable
  | .other =>
      { status := 500
        title := "Internal Server Error"
        detail := "The onboarding request could not be completed."
        code := none }

/-- Only failures of a server are tried again. -/
def isRetryable (problem : ProblemSnapshot) : Bool :=
  decide (500 ≤ problem.status)

/-- `sendRpc`: the data of a successful answer, or what is thrown instead. -/
def sendRpc {α : Type} : RpcOutcome α → Except Thrown α
  | .resolved (.success data) => .ok data
  | .resolved (.failure problem) => .error (toException problem)
  | .rejected (.problemResponse problem) => .error (toException problem)
  | .rejected (.http exception body) => .error (.http exception body)
  | .rejected _ => .error (.http .badGateway dependentServiceUnavailable)

/-- A problem that the service does not retry: it is kept as it was answered. -/
def Permanent (problem : ProblemSnapshot) : Prop :=
  problem.status = 400 ∨ problem.status = 409

instance (problem : ProblemSnapshot) : Decidable (Permanent problem) :=
  inferInstanceAs (Decidable (_ ∨ _))

theorem toProblem_toException_of_permanent {problem : ProblemSnapshot}
    (h : Permanent problem) : toProblem (toException problem) = problem := by
  cases problem with
  | mk status title detail code =>
      rcases h with h | h <;> simp only at h <;> subst h <;> rfl

theorem not_isRetryable_of_permanent {problem : ProblemSnapshot}
    (h : Permanent problem) : isRetryable problem = false := by
  rcases h with h | h <;> simp [isRetryable, h]

theorem isRetryable_toProblem_toException (problem : ProblemSnapshot) :
    isRetryable (toProblem (toException problem)) = !decide (Permanent problem) := by
  by_cases h : Permanent problem
  · rw [toProblem_toException_of_permanent h, not_isRetryable_of_permanent h]
    simp [h]
  · obtain ⟨h400, h409⟩ := not_or.mp h
    simp [toException, h400, h409, h, toProblem, extractProblemFromException,
      isRetryable, HttpException.getStatus]

end Modularis.Onboarding.Contracts
