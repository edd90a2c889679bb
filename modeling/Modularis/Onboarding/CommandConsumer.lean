import Modularis.Onboarding.Contracts
import Modularis.Shared.RabbitBus

namespace Modularis.Onboarding.CommandConsumer

open Modularis.Onboarding.Contracts
open Modularis.Shared.RabbitBus (Json isTrimmed isRecord isRpcResponse rpcEnvelopePayload
  normalizeRpcResponse readReply messageCorrelationId)

section Errors

/-- Only an `HttpException` has a body. -/
def extractResponseBody : Thrown → Option ProblemSnapshot
  | .http _ body => some body
  | _ => none

/-- Anything but an `HttpException` is a 500. -/
def inferStatus : Thrown → Int
  | .http exception _ => exception.getStatus
  | _ => 500

/-- The title of an exception without a body. -/
def titleOfStatus (status : Int) : String :=
  if status = 400 then "Bad Request"
  else if status = 409 then "Conflict"
  else if status = 502 then "Bad Gateway"
  else "Internal Server Error"

/-- The title of the body, or that of the status. -/
def inferTitle (error : Thrown) (status : Int) : String :=
  match extractResponseBody error with
  | some response => response.title
  | none => titleOfStatus status

/-- The detail of the body; nothing else is told of other exceptions. -/
def inferDetail (error : Thrown) : String :=
  match extractResponseBody error with
  | some response => response.detail
  | none => "The onboarding request could not be processed."

/-- The code of the body. -/
def inferCode (error : Thrown) : Option String :=
  (extractResponseBody error).bind ProblemSnapshot.code

/-- The `error` of the answer; an empty code is left out. -/
def errorPayload (error : Thrown) : ProblemSnapshot where
  status := inferStatus error
  title := inferTitle error (inferStatus error)
  detail := inferDetail error
  code := (inferCode error).filter (· ≠ "")

/-- The exception of a command that does not pass its validation. -/
def invalidCommand : Thrown :=
  .http .badRequest
    { status := 400
      title := "Bad Request"
      detail := "The onboarding command payload is invalid."
      code := some "INVALID_COMMAND" }

end Errors

section Values

/-- An object; a member that is `undefined` is left out of its text. -/
def object (members : List (String × Option Json)) : Json :=
  .object (members.filterMap fun member => member.2.map fun value => (member.1, value))

/-- A user, as `JSON.stringify` sees it. -/
def userJson (user : UserPayload) : Json :=
  .object
    [("id", .string user.id), ("email", .string user.email), ("name", .string user.name),
      ("isPremium", .bool user.isPremium)]

/-- A payment, without the members that are undefined. -/
def paymentJson (payment : PublicPaymentIntentPayload) : Json :=
  object
    [("id", some (.string payment.id)),
      ("paymentReference", some (.string payment.paymentReference)),
      ("amount", some (.number payment.amount)),
      ("currency", some (.string payment.currency)),
      ("paymentStatus", some (.string payment.paymentStatus)),
      ("deliveryStatus", some (.string payment.deliveryStatus)),
      ("expiresAt", some (.string payment.expiresAt)),
      ("qrCode", some (.string payment.qrCode)),
      ("qrCodeImageUrl", payment.qrCodeImageUrl.map .string)]

/-- The `meta` of a response. -/
def metaJson (metadata : ResponseMeta) : Json :=
  .object
    [("correlationId", .string metadata.correlationId),
      ("idempotencyKey", .string metadata.idempotencyKey),
      ("replayed", .bool metadata.replayed)]

/-- The data of a success. -/
def accountJson (response : CreateAccountResponse) : Json :=
  .object
    [("user", userJson response.user), ("payment", paymentJson response.payment),
      ("meta", metaJson response.metadata)]

/-- The error of a failure. -/
def problemJson (problem : ProblemSnapshot) : Json :=
  object
    [("status", some (.number problem.status)), ("title", some (.string problem.title)),
      ("detail", some (.string problem.detail)), ("code", problem.code.map .string)]

/-- The response, as it is sent. -/
def rpcResponseJson : RpcResponse CreateAccountResponse → Json
  | .success data => .object [("success", .bool true), ("data", accountJson data)]
  | .failure error => .object [("success", .bool false), ("error", problemJson error)]

end Values

section Consumer

/-- What the consumer reads of a delivery. -/
structure ConsumeMessage where
  content : String
  correlationId : Option String
  headers : String → Option Json

/-- A header, if it is a string that is not blank. -/
def headerString (message : ConsumeMessage) (key : String) : Option String :=
  match message.headers key with
  | some (.string value) => if value.toList.all isTrimmed then none else some value
  | _ => none

/-- What the consumer draws for an answer. -/
structure Draws where
  messageId : String
  correlationId : String
  occurredAt : String

/-- The value passes a condition of JavaScript. -/
def isTruthy : Json → Bool
  | .null | .bool false => false
  | .number value => decide (value ≠ 0)
  | .string value => decide (value ≠ "")
  | _ => true

/-- The operator `??`. -/
def coalesce : Option Json → Json → Json
  | none, other | some .null, other => other
  | some value, _ => value

/-- `createMessageEnvelope` of an answer. -/
def envelope (draws : Draws) (correlationId causationId payload : Option Json) : Json :=
  object
    [("schemaVersion", some (.string "1.0.0")), ("messageId", some (.string draws.messageId)),
      ("correlationId", correlationId), ("causationId", causationId.filter isTruthy),
      ("occurredAt", some (.string draws.occurredAt)),
      ("type", some (.string "onboarding.account.create.response")),
      ("eventVersion", some (.string "1.0.0")), ("id", some (.string draws.messageId)),
      ("timestamp", some (.string draws.occurredAt)),
      ("eventType", some (.string "onboarding.account.create.response")),
      ("source", some (.string "onboarding-service")), ("payload", payload)]

/-- The command of a message whose payload is valid.  The validation throws where there is no
payload to look at. -/
def readCommand (parseJson : String → Except String Json)
    (validates : Option Json → Except String Bool) (content : String) :
    Except Thrown Json :=
  match parseJson content with
  | .error message => .error (.error message)
  | .ok .null => .error (.error "Cannot read properties of null (reading 'payload')")
  | .ok command =>
      match validates (command.get "payload") with
      | .error message => .error (.error message)
      | .ok false => .error invalidCommand
      | .ok true => .ok command

/-- How the `try` of `handleCreateCommand` ends. -/
def outcome (parseJson : String → Except String Json)
    (validates : Option Json → Except String Bool)
    (create : Json → Except Thrown CreateAccountResponse) (content : String) :
    Except Thrown CreateAccountResponse :=
  (readCommand parseJson validates content).bind create

/-- What the caller is told of an outcome. -/
def rpcResponse : Except Thrown CreateAccountResponse → RpcResponse CreateAccountResponse
  | .ok response => .success response
  | .error error => .failure (errorPayload error)

/-- A property of the command, if it could be read. -/
def commandProperty (parseJson : String → Except String Json) (content key : String) :
    Option Json :=
  match parseJson content with
  | .error _ => none
  | .ok command => command.get key

/-- Whatever happens, a response goes back. -/
def handleCreateCommand (parseJson : String → Except String Json)
    (validates : Option Json → Except String Bool)
    (create : Json → Except Thrown CreateAccountResponse) (draws : Draws)
    (message : ConsumeMessage) : Json :=
  let property := commandProperty parseJson message.content
  let result := outcome parseJson validates create message.content
  let payload := rpcResponseJson (rpcResponse result)
  match result with
  | .ok _ =>
      envelope draws (property "correlationId") (property "messageId") (some payload)
  | .error _ =>
      envelope draws
        (some (coalesce (property "correlationId")
          (.string ((headerString message "x-correlation-id").getD
            ((messageCorrelationId message.correlationId).getD draws.correlationId)))))
        (some (coalesce (property "messageId")
          (.string ((headerString message "x-causation-id").getD
            "onboarding.account.create"))))
        (some payload)

end Consumer

section Answers

theorem isRpcResponse_rpcResponseJson (response : RpcResponse CreateAccountResponse) :
    isRpcResponse (rpcResponseJson response) = true := by
  cases response with
  | success data => rfl
  | failure error =>
      obtain ⟨status, title, detail, code⟩ := error
      cases code <;> rfl

theorem rpcEnvelopePayload_envelope (draws : Draws)
    (correlationId causationId : Option Json)
    (response : RpcResponse CreateAccountResponse) :
    rpcEnvelopePayload
        (envelope draws correlationId causationId (some (rpcResponseJson response))) =
      some (rpcResponseJson response) := by
  have hget : (envelope draws correlationId causationId
      (some (rpcResponseJson response))).get "payload" = some (rpcResponseJson response) := by
    unfold envelope
    cases correlationId <;> cases causationId.filter isTruthy <;> rfl
  have hrecord : isRecord (envelope draws correlationId causationId
    (some (rpcResponseJson response))) = true := rfl
  rw [rpcEnvelopePayload, if_pos hrecord, hget, Option.filter_some,
    if_pos (isRpcResponse_rpcResponseJson response)]

theorem readReply_handleCreateCommand {parseJson : String → Except String Json}
    {validates : Option Json → Except String Bool}
    {create : Json → Except Thrown CreateAccountResponse}
    {draws : Draws} {message : ConsumeMessage} {content : String}
    (hcontent : parseJson content =
      .ok (handleCreateCommand parseJson validates create draws message)) :
    readReply parseJson content =
      .resolved (rpcResponseJson
        (rpcResponse (outcome parseJson validates create message.content))) := by
  have hpayload : rpcEnvelopePayload
      (handleCreateCommand parseJson validates create draws message) =
        some (rpcResponseJson
          (rpcResponse (outcome parseJson validates create message.content))) := by
    unfold handleCreateCommand
    dsimp only
    split <;> exact rpcEnvelopePayload_envelope _ _ _ _
  simp only [readReply, hcontent, normalizeRpcResponse, hpayload]

end Answers

end Modularis.Onboarding.CommandConsumer
