import Modularis.Identity.Database

namespace Modularis.Identity.Service

open Modularis.Foundation
open Modularis.Foundation.Column
open Modularis.Shared.Uuid
open Modularis.Identity.Database

/-- The payload of `identity.user.create`. -/
structure UserCreateCommandPayload where
  idempotencyKey : String
  requestHash : String
  email : String
  name : String
  cellphone : String
  taxId : String
deriving DecidableEq, Repr

/-- A command to create a user. -/
structure UserCreateCommandMessage where
  correlationId : String
  payload : UserCreateCommandPayload
deriving DecidableEq, Repr

/-- The payload of `identity.user.compensate`. -/
structure UserCompensationCommandPayload where
  idempotencyKey : String
  userId : String
  reason : String
deriving DecidableEq, Repr

/-- A command to undo a user. -/
structure UserCompensationCommandMessage where
  correlationId : String
  payload : UserCompensationCommandPayload
deriving DecidableEq, Repr

/-- What others see of a user. -/
structure UserPayload where
  id : String
  email : String
  name : String
  isPremium : Bool
deriving DecidableEq, Repr

/-- The data of a successful creation. -/
structure UserCreateCommandResult where
  user : UserPayload
  replayed : Bool
deriving DecidableEq, Repr

/-- The data of a successful compensation. -/
structure CompensationCommandResult where
  compensated : Bool
  replayed : Bool
deriving DecidableEq, Repr

/-- The error of a response. -/
structure RpcErrorPayload where
  status : Nat
  title : String
  detail : String
  code : String
deriving DecidableEq, Repr

/-- A refusal with the status 409. -/
def conflict (detail code : String) : RpcErrorPayload where
  status := 409
  title := "Conflict"
  detail := detail
  code := code

/-- How the listener answers any other exception. -/
def userCommandFailed : RpcErrorPayload where
  status := 500
  title := "Internal Server Error"
  detail := "failed to process identity command"
  code := "USER_COMMAND_FAILED"

/-- The user as others see it. -/
def toPayload (user : UserEntity) : UserPayload where
  id := user.id.toString
  email := user.email
  name := user.name
  isPremium := user.premium

/-- `randomUUID` is what `UUID.randomUUID()` draws.  Ids are assigned, so both
inserts wait for the commit, behind the `catch` of the method, and the answer shows the
user as the command has it. -/
def createUser (db : IdentityDatabase) (command : UserCreateCommandMessage)
    (randomUUID : UUID) :
    Except RpcErrorPayload UserCreateCommandResult × IdentityDatabase :=
  let payload := command.payload
  -- A query for what is no text for Postgres fails.
  if isText payload.idempotencyKey = false then (.error userCommandFailed, db)
  else
    match db.onboardingRequests.row payload.idempotencyKey with
    | some request =>
        if request.requestHash ≠ payload.requestHash then
          (.error (conflict
            "Idempotency-Key was already used with a different payload"
            "IDEMPOTENCY_KEY_REUSED"), db)
        else
          match db.users.row request.userId with
          | some user => (.ok { user := toPayload user, replayed := true }, db)
          | none => (.error userCommandFailed, db)
    | none =>
        if isText payload.email = false then (.error userCommandFailed, db)
        else if db.existsByEmail payload.email then
          (.error (conflict "Email is already registered" "EMAIL_ALREADY_EXISTS"),
            db)
        else if isText payload.taxId = false then (.error userCommandFailed, db)
        else if db.existsByTaxId payload.taxId then
          (.error (conflict "Tax ID is already registered"
            "TAX_ID_ALREADY_EXISTS"), db)
        else
          let user : UserEntity :=
            { id := randomUUID
              email := payload.email
              name := payload.name
              cellphone := payload.cellphone
              taxId := payload.taxId
              premium := false }
          let request : OnboardingRequestEntity :=
            { idempotencyKey := payload.idempotencyKey
              requestHash := payload.requestHash
              correlationId := command.correlationId
              userId := user.id }
          match db.insertUser user request with
          | some db' => (.ok { user := toPayload user, replayed := false }, db')
          | none => (.error userCommandFailed, db)

/-- A receipt answers a repetition; else the user and its request go, and a receipt stays.
-/
def compensateUser (db : IdentityDatabase)
    (command : UserCompensationCommandMessage) :
    Except RpcErrorPayload CompensationCommandResult × IdentityDatabase :=
  let payload := command.payload
  if isText payload.idempotencyKey = false then (.error userCommandFailed, db)
  else
    match db.userCompensationReceipts.row payload.idempotencyKey with
    | some receipt =>
        if receipt.userId.toString ≠ payload.userId then
          (.error (conflict
            "Idempotency-Key was already used with a different compensation target"
            "IDEMPOTENCY_KEY_REUSED"), db)
        else (.ok { compensated := true, replayed := true }, db)
    | none =>
        match UUID.fromString payload.userId with
        | none => (.error userCommandFailed, db)
        | some userId =>
            if (db.users.row userId).any UserEntity.premium then
              (.error (conflict
                "Premium users cannot be compensated through onboarding rollback"
                "USER_ALREADY_PREMIUM"), db)
            else
              match db.compensate
                  { idempotencyKey := payload.idempotencyKey
                    correlationId := command.correlationId
                    userId := userId } with
              | some db' => (.ok { compensated := true, replayed := false }, db')
              | none => (.error userCommandFailed, db)

section Specifications

variable (db : IdentityDatabase)

/-- The user that a fresh `createUser` inserts. -/
def newUser (command : UserCreateCommandMessage) (randomUUID : UUID) :
    UserEntity where
  id := randomUUID
  email := command.payload.email
  name := command.payload.name
  cellphone := command.payload.cellphone
  taxId := command.payload.taxId
  premium := false

/-- The request that is stored beside a new user. -/
def newRequest (command : UserCreateCommandMessage) (randomUUID : UUID) :
    OnboardingRequestEntity where
  idempotencyKey := command.payload.idempotencyKey
  requestHash := command.payload.requestHash
  correlationId := command.correlationId
  userId := randomUUID

theorem isText_of_request {key : String} {request : OnboardingRequestEntity}
    (hrow : db.onboardingRequests.row key = some request) : isText key = true :=
  isText_of_varchar (varchar_of_row_request hrow)

theorem isText_of_receipt {key : String} {receipt : UserCompensationReceiptEntity}
    (hrow : db.userCompensationReceipts.row key = some receipt) : isText key = true :=
  isText_of_varchar (varchar_of_row_receipt hrow)

theorem createUser_ok {command : UserCreateCommandMessage} {randomUUID : UUID}
    {result : UserCreateCommandResult} {db' : IdentityDatabase}
    (h : createUser db command randomUUID = (.ok result, db')) :
    (∃ request user,
      db.onboardingRequests.row command.payload.idempotencyKey = some request ∧
      request.requestHash = command.payload.requestHash ∧
      db.users.row request.userId = some user ∧
      result.user = toPayload user ∧ db' = db) ∨
    (db.onboardingRequests.row command.payload.idempotencyKey = none ∧
      db.insertUser (newUser command randomUUID) (newRequest command randomUUID) =
        some db' ∧
      result.user = toPayload (newUser command randomUUID)) := by
  simp only [createUser] at h
  split at h
  · cases congrArg Prod.fst h
  split at h
  · rename_i request hrow
    split at h
    · cases congrArg Prod.fst h
    · rename_i hhash
      split at h
      · rename_i user huser
        obtain ⟨hresult, rfl⟩ := Prod.mk.inj h
        obtain rfl := Except.ok.inj hresult
        exact .inl ⟨request, user, hrow, not_not.mp hhash, huser, rfl, rfl⟩
      · cases congrArg Prod.fst h
  · rename_i hrow
    split at h
    · cases congrArg Prod.fst h
    split at h
    · cases congrArg Prod.fst h
    split at h
    · cases congrArg Prod.fst h
    split at h
    · cases congrArg Prod.fst h
    split at h
    · rename_i inserted hinsert
      obtain ⟨hresult, rfl⟩ := Prod.mk.inj h
      obtain rfl := Except.ok.inj hresult
      exact .inr ⟨hrow, hinsert, rfl⟩
    · cases congrArg Prod.fst h

theorem createUser_error {command : UserCreateCommandMessage}
    {randomUUID : UUID} {error : RpcErrorPayload} {db' : IdentityDatabase}
    (h : createUser db command randomUUID = (.error error, db')) : db' = db := by
  simp only [createUser] at h
  repeat' split at h
  all_goals first
    | exact (congrArg Prod.snd h).symm
    | cases congrArg Prod.fst h

theorem createUser_db (command : UserCreateCommandMessage) (randomUUID : UUID) :
    (createUser db command randomUUID).2 = db ∨
      db.insertUser (newUser command randomUUID) (newRequest command randomUUID) =
        some (createUser db command randomUUID).2 := by
  cases hresult : createUser db command randomUUID with
  | mk answer db' =>
      cases answer with
      | error error => exact .inl (createUser_error db hresult)
      | ok result =>
          rcases createUser_ok db hresult with ⟨_, _, _, _, _, _, hsame⟩ | ⟨_, hinsert, _⟩
          · exact .inl hsame
          · exact .inr hinsert

theorem createUser_replay {command : UserCreateCommandMessage}
    {request : OnboardingRequestEntity} {user : UserEntity} (randomUUID : UUID)
    (hrow : db.onboardingRequests.row command.payload.idempotencyKey =
      some request)
    (hhash : request.requestHash = command.payload.requestHash)
    (huser : db.users.row request.userId = some user) :
    createUser db command randomUUID =
      (.ok { user := toPayload user, replayed := true }, db) := by
  simp [createUser, isText_of_request db hrow, hrow, hhash, huser]

/-- The receipt that a fresh `compensateUser` stores. -/
def newReceipt (command : UserCompensationCommandMessage) (userId : UUID) :
    UserCompensationReceiptEntity where
  idempotencyKey := command.payload.idempotencyKey
  correlationId := command.correlationId
  userId := userId

/-- The command finds no receipt and a user that it may delete, or none, and there is room
for its receipt. -/
structure Compensates (command : UserCompensationCommandMessage)
    (userId : UUID) : Prop where
  unseen : db.userCompensationReceipts.row command.payload.idempotencyKey = none
  target : UUID.fromString command.payload.userId = some userId
  regular : (db.users.row userId).any UserEntity.premium = false
  storable : ∃ receipt, (newReceipt command userId).stored = some receipt ∧
    db.userCompensationReceipts.row receipt.idempotencyKey = none

theorem compensateUser_ok {command : UserCompensationCommandMessage}
    {result : CompensationCommandResult} {db' : IdentityDatabase}
    (h : compensateUser db command = (.ok result, db')) :
    result.compensated = true ∧
    ((∃ receipt, db.userCompensationReceipts.row command.payload.idempotencyKey =
        some receipt ∧
      receipt.userId.toString = command.payload.userId ∧ db' = db) ∨
    ∃ userId, Compensates db command userId ∧
      db.compensate (newReceipt command userId) = some db') := by
  simp only [compensateUser] at h
  split at h
  · cases congrArg Prod.fst h
  split at h
  · rename_i receipt hrow
    split at h
    · cases congrArg Prod.fst h
    · rename_i htarget
      obtain ⟨hresult, rfl⟩ := Prod.mk.inj h
      obtain rfl := Except.ok.inj hresult
      exact ⟨rfl, .inl ⟨receipt, hrow, not_not.mp htarget, rfl⟩⟩
  · rename_i hrow
    split at h
    · cases congrArg Prod.fst h
    · rename_i userId htarget
      split at h
      · cases congrArg Prod.fst h
      · rename_i hregular
        split at h
        · rename_i compensated hcompensate
          obtain ⟨hresult, rfl⟩ := Prod.mk.inj h
          obtain rfl := Except.ok.inj hresult
          obtain ⟨receipt, hremoved⟩ := compensate_some hcompensate
          exact ⟨rfl, .inr ⟨userId, ⟨hrow, htarget, Bool.eq_false_iff.mpr hregular,
            receipt, hremoved.stored, hremoved.key⟩, hcompensate⟩⟩
        · cases congrArg Prod.fst h

theorem compensateUser_error {command : UserCompensationCommandMessage}
    {error : RpcErrorPayload} {db' : IdentityDatabase}
    (h : compensateUser db command = (.error error, db')) : db' = db := by
  simp only [compensateUser] at h
  repeat' split at h
  all_goals first
    | exact (congrArg Prod.snd h).symm
    | cases congrArg Prod.fst h

theorem compensateUser_db (command : UserCompensationCommandMessage) :
    (compensateUser db command).2 = db ∨
      ∃ userId, Compensates db command userId ∧
        db.compensate (newReceipt command userId) =
          some (compensateUser db command).2 := by
  cases hresult : compensateUser db command with
  | mk answer db' =>
      cases answer with
      | error error => exact .inl (compensateUser_error db hresult)
      | ok result =>
          rcases (compensateUser_ok db hresult).2 with ⟨_, _, _, hsame⟩ | hcompensates
          · exact .inl hsame
          · exact .inr hcompensates

theorem compensateUser_of_compensates {command : UserCompensationCommandMessage}
    {userId : UUID} (h : Compensates db command userId) :
    ∃ db', compensateUser db command =
        (.ok { compensated := true, replayed := false }, db') ∧
      db.compensate (newReceipt command userId) = some db' := by
  obtain ⟨receipt, hstored, hkey⟩ := h.storable
  have htext : isText command.payload.idempotencyKey = true :=
    isText_of_varchar (UserCompensationReceiptEntity.stored_eq_some_iff.mp hstored).1
  obtain ⟨db', hcompensate⟩ := compensate_of_stored hstored hkey
  refine ⟨db', ?_, hcompensate⟩
  simp only [compensateUser, htext, h.unseen, h.target, h.regular, Bool.true_eq_false,
    Bool.false_eq_true, if_false]
  rw [newReceipt] at hcompensate
  rw [hcompensate]

end Specifications

end Modularis.Identity.Service
