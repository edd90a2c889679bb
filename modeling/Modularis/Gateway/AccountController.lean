import Modularis.Foundation.Table
import Modularis.Onboarding.CommandConsumer

namespace Modularis.Gateway.AccountController

open Modularis.Onboarding.Contracts (Thrown ProblemSnapshot CreateAccountResponse
  RpcResponse)
open Modularis.Onboarding.CommandConsumer
open Modularis.Shared.RabbitBus (Json Outcome isTrimmed readReply)

section Exceptions

/-- The exception classes that the gateway throws. -/
inductive HttpException where
  | badRequest
  | unauthorized
  | conflict
  | badGateway
deriving DecidableEq, Repr

/-- The status of each exception class. -/
def HttpException.getStatus : HttpException → Nat
  | .badRequest => 400
  | .unauthorized => 401
  | .conflict => 409
  | .badGateway => 502

/-- A thrown value: an HTTP exception with its response and its message, or any other. -/
inductive Exception where
  | http (exception : HttpException) (response : Json) (message : String)
  | other

/-- The body of an error response. -/
structure ProblemDetails where
  type : String
  title : String
  status : Nat
  detail : String
  code : Option String
deriving DecidableEq, Repr

/-- The member, if it is a string. -/
def asString : Option Json → Option String
  | some (.string value) => some value
  | _ => none

/-- The title of an exception that brings none. -/
def defaultTitle (status : Nat) : String :=
  if status = 400 then "Bad Request"
  else if status = 401 then "Unauthorized"
  else if status = 409 then "Conflict"
  else if status = 502 then "Bad Gateway"
  else "Internal Server Error"

variable (numberText : Rat → String)

mutual

/-- What `Array.prototype.join` makes of an item. -/
def itemText : Json → String
  | .null => ""
  | .bool value => if value then "true" else "false"
  | .number value => numberText value
  | .string value => value
  | .array items => ",".intercalate (itemTexts items)
  | .object _ => "[object Object]"

/-- The items of an array, as `join` writes them. -/
def itemTexts : List Json → List String
  | [] => []
  | item :: items => itemText item :: itemTexts items

end

/-- A list of messages is joined; else the first of `detail`, `message` and the
exception's own text that there is. -/
def detailOf (data : Json) (message : String) : String :=
  match data.get "message" with
  | some (.array items) => ", ".intercalate (itemTexts numberText items)
  | other =>
      match asString (data.get "detail") with
      | some detail => detail
      | none => (asString other).getD message

/-- The first of `title`, `error` and the default that there is. -/
def titleOf (data : Json) (status : Nat) : String :=
  match asString (data.get "title") with
  | some title => title
  | none => (asString (data.get "error")).getD (defaultTitle status)

/-- What a client is told of an exception that is not an `HttpException`. -/
def unexpected : ProblemDetails where
  type := "about:blank"
  title := defaultTitle 500
  status := 500
  detail := "The request could not be completed."
  code := none

/-- `normalize`, and the code as `catch` writes it. -/
def normalize : Exception → ProblemDetails
  | .other => unexpected
  | .http exception response message =>
      let status := exception.getStatus
      match response with
      | .string body =>
          { type := "about:blank"
            title := defaultTitle status
            status := status
            detail := body
            code := none }
      | .object _ | .array _ =>
          { type := (asString (response.get "type")).getD "about:blank"
            title := titleOf response status
            status := status
            detail := detailOf numberText response message
            code := (asString (response.get "code")).filter (· ≠ "") }
      | _ => unexpected

end Exceptions

section Controller

/-- The code that the controller calls: the message that an HTTP exception is given, and
the token that `AuthService.sign` makes, if it does. -/
structure Environment where
  numberText : Rat → String
  messageOf : HttpException → Json → String
  sign : Option Json → Option String

variable (env : Environment)

/-- An exception with this response, and the text that Nest makes of it. -/
def throwHttp {α : Type} (exception : HttpException) (response : Json) :
    Except Exception α :=
  .error (.http exception response (env.messageOf exception response))

/-- Reading a property of `undefined` or `null` throws. -/
def property (key : String) : Option Json → Except Exception (Option Json)
  | none | some .null => .error .other
  | some value => .ok (value.get key)

/-- `first || second`. -/
def orElse (first : Option Json) (second : Json) : Json :=
  match first with
  | some value => if isTruthy value then value else second
  | none => second

/-- 400 and 409 are passed on; everything else is a 502 that keeps what the error says. -/
def unwrapError (error : Json) : Except Exception (Option Json) :=
  let verbatim (status : Rat) := object
    [("title", error.get "title"), ("status", some (.number status)),
      ("detail", error.get "detail"), ("code", error.get "code")]
  let fallback := object
    [("title", some (orElse (error.get "title") (.string "Bad Gateway"))),
      ("status", some (orElse (error.get "status") (.number 502))),
      ("detail", error.get "detail"), ("code", error.get "code")]
  match error.get "status" with
  | some (.number status) =>
      if status = 400 then throwHttp env .badRequest (verbatim 400)
      else if status = 409 then throwHttp env .conflict (verbatim 409)
      else throwHttp env .badGateway fallback
  | _ => throwHttp env .badGateway fallback

/-- The data of a success; `success` is tested as a condition is. -/
def unwrapRpc (response : Json) : Except Exception (Option Json) :=
  if (response.get "success").any isTruthy then .ok (response.get "data")
  else
    match response.get "error" with
    | none | some .null => .error .other
    | some error => unwrapError env error

/-- `AccountService.create` once its RPC is settled. -/
def unwrapOutcome : Outcome → Except Exception (Option Json)
  | .rejected _ => .error .other
  | .resolved response => unwrapRpc env response

/-- The answer to a request that was not refused. -/
structure Created where
  body : Option Json
  cookie : String
  idempotencyReplayed : String

/-- `String.prototype.trim`. -/
def trim (value : String) : String :=
  String.ofList (((value.toList.dropWhile isTrimmed).reverse.dropWhile isTrimmed).reverse)

theorem getLast?_trim (value : String) : (trim value).toList.getLast? ≠ some ' ' := by
  rw [trim, String.toList_ofList, List.getLast?_reverse]
  intro hlast
  have hkept := List.head?_dropWhile_not isTrimmed (value.toList.dropWhile isTrimmed).reverse
  rw [hlast] at hkept
  exact absurd hkept (by decide)

/-- The response to a request without a key. -/
def keyRequired : Json :=
  .object
    [("title", .string "Bad Request"), ("status", .number 400),
      ("detail", .string "Idempotency-Key header is required.")]

/-- `create` after its RPC: it needs the id of the user for the token and says whether
the answer is a replay. -/
def complete (result : Option Json) : Except Exception Created := do
  let user ← property "user" result
  let userId ← property "id" user
  let token ← match env.sign userId with
    | some token => .ok token
    | none => .error Exception.other
  let metadata ← property "meta" result
  let replayed ← property "replayed" metadata
  return {
    body := result
    cookie := token
    idempotencyReplayed := if replayed.any isTruthy then "true" else "false" }

/-- `rpc` is how the RPC for a key ends. -/
def create (idempotencyKey : Option String) (rpc : String → Outcome) :
    Except Exception Created :=
  let key := trim (idempotencyKey.getD "")
  if key = "" then throwHttp env .badRequest keyRequired
  else (unwrapOutcome env (rpc key)).bind (complete env)

/-- What the client is told. -/
inductive HttpResponse where
  | created (created : Created)
  | problem (details : ProblemDetails)

/-- The status line. -/
def HttpResponse.status : HttpResponse → Nat
  | .created _ => 201
  | .problem details => details.status

/-- The response of the route: its result, or what the filter makes of an exception. -/
def respond (idempotencyKey : Option String) (rpc : String → Outcome) : HttpResponse :=
  match create env idempotencyKey rpc with
  | .ok created => .created created
  | .error exception => .problem (normalize env.numberText exception)

end Controller

section Statuses

variable {env : Environment}

/-- The exceptions of a request for an account. -/
def Refuses (exception : Exception) : Prop :=
  ∀ e response message, exception = .http e response message → e ≠ .unauthorized

theorem refuses_unwrapRpc {response : Json} {exception : Exception}
    (h : unwrapRpc env response = .error exception) : Refuses exception := by
  rintro e body message rfl
  unfold unwrapRpc at h
  split at h
  · cases h
  · split at h
    · cases h
    · cases h
    · simp only [unwrapError, throwHttp] at h
      split at h
      · split at h
        · cases h
          decide
        · split at h
          · cases h
            decide
          · cases h
            decide
      · cases h
        decide

theorem refuses_property {key : String} {value : Option Json} {exception : Exception}
    (h : property key value = .error exception) : exception = .other := by
  unfold property at h
  split at h
  · exact (Except.error.inj h).symm
  · exact (Except.error.inj h).symm
  · cases h

theorem refuses_complete {result : Option Json} {exception : Exception}
    (h : complete env result = .error exception) : exception = .other := by
  unfold complete at h
  cases huser : property "user" result with
  | error error =>
      rw [huser] at h
      exact (Except.error.inj h).symm.trans (refuses_property huser)
  | ok user =>
      cases hid : property "id" user with
      | error error =>
          simp only [huser, hid, bind, Except.bind] at h
          exact (Except.error.inj h).symm.trans (refuses_property hid)
      | ok userId =>
          cases htoken : env.sign userId with
          | none =>
              simp only [huser, hid, htoken, bind, Except.bind] at h
              exact (Except.error.inj h).symm
          | some token =>
              cases hmeta : property "meta" result with
              | error error =>
                  simp only [huser, hid, htoken, hmeta, bind, Except.bind] at h
                  exact (Except.error.inj h).symm.trans (refuses_property hmeta)
              | ok metadata =>
                  simp only [huser, hid, htoken, hmeta, bind, Except.bind] at h
                  split at h
                  · rename_i hreplayed
                    exact (Except.error.inj h).symm.trans (refuses_property hreplayed)
                  · cases h

theorem refuses_create {idempotencyKey : Option String} {rpc : String → Outcome}
    {exception : Exception} (h : create env idempotencyKey rpc = .error exception) :
    Refuses exception := by
  rw [create] at h
  split at h
  · rw [throwHttp, Except.error.injEq] at h
    subst h
    rintro e body message ⟨⟩
    decide
  · cases hrpc : unwrapOutcome env (rpc (trim (idempotencyKey.getD ""))) with
    | error error =>
        rw [hrpc] at h
        obtain rfl := Except.error.inj h
        unfold unwrapOutcome at hrpc
        split at hrpc
        · rw [← Except.error.inj hrpc]
          rintro e body message ⟨⟩
        · exact refuses_unwrapRpc hrpc
    | ok result =>
        rw [hrpc] at h
        rw [refuses_complete h]
        rintro e body message ⟨⟩

theorem status_normalize (numberText : Rat → String) (exception : Exception) :
    (normalize numberText exception).status = 500 ∨ ∃ e response message,
      exception = .http e response message ∧
        (normalize numberText exception).status = e.getStatus := by
  cases exception with
  | other => exact .inl rfl
  | http e response message =>
      cases response with
      | string | object | array => exact .inr ⟨e, _, message, rfl, rfl⟩
      | null | bool | number => exact .inl rfl

theorem status_respond (env : Environment) (idempotencyKey : Option String)
    (rpc : String → Outcome) :
    (respond env idempotencyKey rpc).status ∈ [201, 400, 409, 500, 502] := by
  unfold respond
  split
  · simp [HttpResponse.status]
  · rename_i exception hcreate
    rcases status_normalize env.numberText exception with h | ⟨e, body, message, rfl, h⟩
    · simp [HttpResponse.status, h]
    · have hrefuses := refuses_create hcreate e body message rfl
      cases e with
      | unauthorized => exact absurd rfl hrefuses
      | badRequest | conflict | badGateway =>
          simp [HttpResponse.status, h, HttpException.getStatus]

end Statuses

section Replies

variable {env : Environment}

/-- The problem that the client sees of an error in the answer. -/
def shown (error : ProblemSnapshot) : ProblemDetails :=
  let verbatim := error.status = 400 ∨ error.status = 409
  { type := "about:blank"
    title := if verbatim ∨ error.title ≠ "" then error.title else "Bad Gateway"
    status := if verbatim then error.status.toNat else 502
    detail := error.detail
    code := error.code.filter (· ≠ "") }

/-- What the client is told of the end of the `create` call of its command. -/
def told (env : Environment) : Except Thrown CreateAccountResponse → HttpResponse
  | .ok answer =>
      match env.sign (some (.string answer.user.id)) with
      | some token =>
          .created
            { body := some (accountJson answer)
              cookie := token
              idempotencyReplayed := if answer.metadata.replayed then "true" else "false" }
      | none => .problem unexpected
  | .error error => .problem (shown (errorPayload error))

theorem complete_accountJson (answer : CreateAccountResponse) :
    complete env (some (accountJson answer)) =
      match env.sign (some (.string answer.user.id)) with
      | some token =>
          .ok
            { body := some (accountJson answer)
              cookie := token
              idempotencyReplayed := if answer.metadata.replayed then "true" else "false" }
      | none => .error .other := by
  have huser : property "user" (some (accountJson answer)) =
      .ok (some (userJson answer.user)) := rfl
  have hid : property "id" (some (userJson answer.user)) =
      .ok (some (.string answer.user.id)) := rfl
  have hmeta : property "meta" (some (accountJson answer)) =
      .ok (some (metaJson answer.metadata)) := rfl
  have hreplayed : property "replayed" (some (metaJson answer.metadata)) =
      .ok (some (.bool answer.metadata.replayed)) := rfl
  have htruthy : isTruthy (.bool answer.metadata.replayed) = answer.metadata.replayed := by
    cases answer.metadata.replayed <;> rfl
  unfold complete
  simp only [huser, hid, hmeta, hreplayed, bind, Except.bind]
  cases env.sign (some (.string answer.user.id)) with
  | none => rfl
  | some token =>
      simp only [Option.any_some, htruthy]
      rfl

theorem get_problemJson (error : ProblemSnapshot) :
    (problemJson error).get "status" = some (.number error.status) ∧
      (problemJson error).get "title" = some (.string error.title) ∧
      (problemJson error).get "detail" = some (.string error.detail) ∧
      (problemJson error).get "code" = error.code.map .string := by
  obtain ⟨status, title, detail, code⟩ := error
  cases code <;> exact ⟨rfl, rfl, rfl, rfl⟩

theorem normalize_object (numberText : Rat → String) (exception : HttpException)
    (title detail message : String) (status : Json) (code : Option String) :
    normalize numberText (.http exception (object
      [("title", some (.string title)), ("status", some status),
        ("detail", some (.string detail)), ("code", code.map .string)]) message) =
      { type := "about:blank"
        title := title
        status := exception.getStatus
        detail := detail
        code := code.filter (· ≠ "") } := by
  cases code <;> rfl

theorem normalize_unwrapError (env : Environment) (error : ProblemSnapshot) :
    ∃ exception, unwrapError env (problemJson error) = .error exception ∧
      normalize env.numberText exception = shown error := by
  obtain ⟨hstatus, htitle, hdetail, hcode⟩ := get_problemJson error
  have hcast (n : Int) : (error.status : Rat) = n ↔ error.status = n := Rat.intCast_inj
  unfold unwrapError
  simp only [hstatus, htitle, hdetail, hcode, throwHttp]
  by_cases h400 : error.status = 400
  · refine ⟨_, if_pos ((hcast 400).mpr h400), ?_⟩
    rw [normalize_object]
    simp [shown, h400, HttpException.getStatus]
  · by_cases h409 : error.status = 409
    · refine ⟨_, (if_neg (mt (hcast 400).mp h400)).trans (if_pos ((hcast 409).mpr h409)), ?_⟩
      rw [normalize_object]
      simp [shown, h409, HttpException.getStatus]
    · refine ⟨_, (if_neg (mt (hcast 400).mp h400)).trans
        (if_neg (mt (hcast 409).mp h409)), ?_⟩
      have horElse : orElse (some (.string error.title)) (.string "Bad Gateway") =
          .string (if error.title ≠ "" then error.title else "Bad Gateway") := by
        by_cases hempty : error.title = "" <;> simp [orElse, isTruthy, hempty]
      rw [horElse, normalize_object]
      simp [shown, h400, h409, HttpException.getStatus]

theorem respond_rpcResponseJson (env : Environment) {idempotencyKey : String}
    (hkey : trim idempotencyKey ≠ "") (result : Except Thrown CreateAccountResponse) :
    respond env (some idempotencyKey)
        (fun _ => .resolved (rpcResponseJson (rpcResponse result))) = told env result := by
  rw [respond, AccountController.create, Option.getD_some, if_neg hkey]
  cases result with
  | ok answer =>
      have hunwrap : unwrapOutcome env (.resolved (rpcResponseJson (rpcResponse (.ok answer)))) =
          .ok (some (accountJson answer)) := rfl
      rw [hunwrap, Except.bind, complete_accountJson, told]
      cases env.sign (some (.string answer.user.id)) <;> rfl
  | error error =>
      obtain ⟨exception, hthrown, hshown⟩ :=
        normalize_unwrapError env (errorPayload error)
      have hunwrap : unwrapOutcome env
          (.resolved (rpcResponseJson (rpcResponse (.error error)))) = .error exception :=
        hthrown
      rw [hunwrap, Except.bind, told, ← hshown]

/-- The client is told how the `create` call of its command ended: an account with the
cookie of its user, a refusal word for word, or a bad gateway. -/
theorem client_is_told (env : Environment) {parseJson : String → Except String Json}
    {validates : Option Json → Except String Bool}
    {create : Json → Except Thrown CreateAccountResponse}
    {draws : Draws} {message : ConsumeMessage} {content : String}
    (hcontent : parseJson content =
      .ok (handleCreateCommand parseJson validates create draws message))
    {idempotencyKey : String} (hkey : trim idempotencyKey ≠ "") :
    respond env (some idempotencyKey) (fun _ => readReply parseJson content) =
      told env (outcome parseJson validates create message.content) := by
  rw [readReply_handleCreateCommand hcontent]
  exact respond_rpcResponseJson env hkey _

end Replies

section Sample

open Modularis.Foundation
open Modularis.Onboarding.Contracts (idempotencyKeyReused)

def sampleEnvironment : Environment where
  numberText := fun _ => "0"
  messageOf := fun _ _ => "Http Exception"
  sign := fun _ => some "token-1"

def sampleCommand (requestHash : String) : Json :=
  .object
    [("messageId", .string "m-1"), ("correlationId", .string "c-1"),
      ("payload", .object
        [("idempotencyKey", .string "key-1"), ("requestHash", .string requestHash),
          ("email", .string "ada@example.com"), ("name", .string "Ada"),
          ("cellphone", .string "11999990000"), ("taxId", .string "12345678901"),
          ("amount", .number 10), ("currency", .string "BRL")])]

@[irreducible] def sampleCommandText (requestHash : String) : String :=
  "\x7b\"messageId\":\"m-1\",\"correlationId\":\"c-1\"," ++
  "\"payload\":\x7b\"idempotencyKey\":\"key-1\",\"requestHash\":\"" ++ requestHash ++
  "\",\"email\":\"ada@example.com\",\"name\":\"Ada\",\"cellphone\":\"11999990000\"," ++
  "\"taxId\":\"12345678901\",\"amount\":10,\"currency\":\"BRL\"\x7d\x7d"

def sampleMessage (content : String) : ConsumeMessage where
  content := content
  correlationId := some "rpc-1"
  headers := fun _ => none

def sampleAccount : CreateAccountResponse where
  user :=
    { id := "ffffffff-ffff-ffff-ffff-ffffffffffff"
      email := "ada@example.com"
      name := "Ada"
      isPremium := false }
  payment :=
    { id := "payment-1"
      paymentReference := "ref-1"
      amount := 10
      currency := "BRL"
      paymentStatus := "PENDING"
      deliveryStatus := "PENDING"
      expiresAt := "1970-01-01T00:31:00Z"
      qrCode := ""
      qrCodeImageUrl := none }
  metadata :=
    { correlationId := "c-1"
      idempotencyKey := "key-1"
      replayed := false }

/-- The key stands for the first body. -/
def sampleCreate (command : Json) : Except Thrown CreateAccountResponse :=
  match (command.get "payload").bind (Json.get "requestHash") with
  | some (.string "hash-1") => .ok sampleAccount
  | _ => .error idempotencyKeyReused

def sampleDraws : Draws where
  messageId := "m-2"
  correlationId := "c-2"
  occurredAt := "2026-01-01T00:00:00.000Z"

def sampleReply (correlationId causationId : String)
    (result : RpcResponse CreateAccountResponse) : Json :=
  envelope sampleDraws (some (.string correlationId)) (some (.string causationId))
    (some (rpcResponseJson result))

def sampleReplyText (correlationId causationId payload : String) : String :=
  "\x7b\"schemaVersion\":\"1.0.0\",\"messageId\":\"m-2\",\"correlationId\":\"" ++
  correlationId ++ "\",\"causationId\":\"" ++ causationId ++ "\"," ++
  "\"occurredAt\":\"2026-01-01T00:00:00.000Z\"," ++
  "\"type\":\"onboarding.account.create.response\",\"eventVersion\":\"1.0.0\"," ++
  "\"id\":\"m-2\",\"timestamp\":\"2026-01-01T00:00:00.000Z\"," ++
  "\"eventType\":\"onboarding.account.create.response\",\"source\":\"onboarding-service\"," ++
  "\"payload\":" ++ payload ++ "\x7d"

@[irreducible] def sampleCreatedText : String :=
  sampleReplyText "c-1" "m-1"
    ("\x7b\"success\":true,\"data\":\x7b\"user\":" ++
      "\x7b\"id\":\"ffffffff-ffff-ffff-ffff-ffffffffffff\",\"email\":\"ada@example.com\"," ++
      "\"name\":\"Ada\",\"isPremium\":false\x7d,\"payment\":\x7b\"id\":\"payment-1\"," ++
      "\"paymentReference\":\"ref-1\",\"amount\":10,\"currency\":\"BRL\"," ++
      "\"paymentStatus\":\"PENDING\",\"deliveryStatus\":\"PENDING\"," ++
      "\"expiresAt\":\"1970-01-01T00:31:00Z\",\"qrCode\":\"\"\x7d," ++
      "\"meta\":\x7b\"correlationId\":\"c-1\",\"idempotencyKey\":\"key-1\"," ++
      "\"replayed\":false\x7d\x7d\x7d")

@[irreducible] def sampleConflictText : String :=
  sampleReplyText "c-1" "m-1"
    ("\x7b\"success\":false,\"error\":\x7b\"status\":409,\"title\":\"Conflict\"," ++
      "\"detail\":\"Idempotency-Key was already used with a different payload\"," ++
      "\"code\":\"IDEMPOTENCY_KEY_REUSED\"\x7d\x7d")

@[irreducible] def sampleErrorText : String :=
  sampleReplyText "rpc-1" "onboarding.account.create"
    ("\x7b\"success\":false,\"error\":\x7b\"status\":500," ++
      "\"title\":\"Internal Server Error\"," ++
      "\"detail\":\"The onboarding request could not be processed.\"\x7d\x7d")

/-- The texts of the values that are sent. -/
def sampleTexts : List (String × Json) :=
  [(sampleCommandText "hash-1", sampleCommand "hash-1"),
    (sampleCommandText "hash-2", sampleCommand "hash-2"),
    (sampleCreatedText, sampleReply "c-1" "m-1" (.success sampleAccount)),
    (sampleConflictText, sampleReply "c-1" "m-1" (.failure (errorPayload idempotencyKeyReused))),
    (sampleErrorText, sampleReply "rpc-1" "onboarding.account.create"
      (.failure (errorPayload (.error "Unexpected token"))))]

def sampleParser (content : String) : Except String Json :=
  match sampleTexts.find? fun entry => entry.1 = content with
  | some entry => .ok entry.2
  | none => .error "Unexpected token"

theorem sampleParser_of_getElem? {n : Nat} {text : String} {value : Json}
    (h : sampleTexts[n]? = some (text, value)) : sampleParser text = .ok value := by
  have hnodup : (sampleTexts.map Prod.fst).Nodup := by decide +kernel
  have hfound := Table.find?_key hnodup (List.mem_of_getElem? h)
  simp only [sampleParser, hfound]

theorem sampleParser_unreadable : sampleParser "not json" = .error "Unexpected token" := by
  have hnone : (sampleTexts.find? fun entry => entry.1 = "not json").isNone = true := by
    decide +kernel
  simp only [sampleParser, Option.isNone_iff_eq_none.mp hnone]

theorem outcome_sampleCommand {requestHash : String}
    (htext : sampleParser (sampleCommandText requestHash) = .ok (sampleCommand requestHash)) :
    outcome sampleParser (fun _ => .ok true) sampleCreate
        (sampleMessage (sampleCommandText requestHash)).content =
      sampleCreate (sampleCommand requestHash) := by
  have hcontent : sampleParser (sampleMessage (sampleCommandText requestHash)).content =
      .ok (sampleCommand requestHash) := htext
  simp only [outcome, readCommand, hcontent]
  rfl

theorem handle_sampleCommand {requestHash : String}
    (htext : sampleParser (sampleCommandText requestHash) = .ok (sampleCommand requestHash)) :
    handleCreateCommand sampleParser (fun _ => .ok true) sampleCreate sampleDraws
        (sampleMessage (sampleCommandText requestHash)) =
      sampleReply "c-1" "m-1" (rpcResponse (sampleCreate (sampleCommand requestHash))) := by
  have hcontent : sampleParser (sampleMessage (sampleCommandText requestHash)).content =
      .ok (sampleCommand requestHash) := htext
  simp only [handleCreateCommand, outcome_sampleCommand htext, commandProperty, hcontent]
  cases sampleCreate (sampleCommand requestHash) with
  | ok answer => rfl
  | error error => rfl

theorem handle_sampleUnreadable :
    handleCreateCommand sampleParser (fun _ => .ok true) sampleCreate sampleDraws
        (sampleMessage "not json") =
      sampleReply "rpc-1" "onboarding.account.create"
        (.failure (errorPayload (.error "Unexpected token"))) := by
  have hcontent : sampleParser (sampleMessage "not json").content =
      .error "Unexpected token" := sampleParser_unreadable
  simp only [handleCreateCommand, outcome, readCommand, commandProperty, hcontent]
  rfl

theorem client_is_told_sample :
    respond sampleEnvironment (some " key-1 ")
        (fun _ => readReply sampleParser sampleCreatedText) =
      .created
        { body := some (accountJson sampleAccount)
          cookie := "token-1"
          idempotencyReplayed := "false" } ∧
    respond sampleEnvironment (some "key-1")
        (fun _ => readReply sampleParser sampleConflictText) =
      .problem (shown (errorPayload idempotencyKeyReused)) ∧
    respond sampleEnvironment (some "key-2")
        (fun _ => readReply sampleParser sampleErrorText) =
      .problem (shown (errorPayload (.error "Unexpected token"))) := by
  have hcreated : sampleParser sampleCreatedText = .ok (handleCreateCommand sampleParser
      (fun _ => .ok true) sampleCreate sampleDraws
      (sampleMessage (sampleCommandText "hash-1"))) := by
    rw [handle_sampleCommand (sampleParser_of_getElem? (n := 0) rfl)]
    exact sampleParser_of_getElem? (n := 2) rfl
  have hconflict : sampleParser sampleConflictText = .ok (handleCreateCommand sampleParser
      (fun _ => .ok true) sampleCreate sampleDraws
      (sampleMessage (sampleCommandText "hash-2"))) := by
    rw [handle_sampleCommand (sampleParser_of_getElem? (n := 1) rfl)]
    exact sampleParser_of_getElem? (n := 3) rfl
  have herror : sampleParser sampleErrorText = .ok (handleCreateCommand sampleParser
      (fun _ => .ok true) sampleCreate sampleDraws (sampleMessage "not json")) := by
    rw [handle_sampleUnreadable]
    exact sampleParser_of_getElem? (n := 4) rfl
  refine ⟨?_, ?_, ?_⟩
  · rw [client_is_told sampleEnvironment hcreated (by decide), outcome_sampleCommand
      (sampleParser_of_getElem? (n := 0) rfl)]
    rfl
  · rw [client_is_told sampleEnvironment hconflict (by decide), outcome_sampleCommand
      (sampleParser_of_getElem? (n := 1) rfl)]
    rfl
  · rw [client_is_told sampleEnvironment herror (by decide)]
    simp only [outcome, readCommand, sampleMessage, sampleParser_unreadable]
    rfl

end Sample

end Modularis.Gateway.AccountController
