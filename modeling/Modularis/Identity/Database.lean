import Modularis.Foundation.Column
import Modularis.Foundation.Table
import Modularis.Shared.Uuid

namespace Modularis.Identity.Database

open Modularis.Foundation
open Modularis.Foundation.Column
open Modularis.Shared.Uuid

/-- A row of `users`. -/
structure UserEntity where
  id : UUID
  email : String
  name : String
  cellphone : String
  taxId : String
  premium : Bool
deriving DecidableEq

/-- A row of `onboarding_requests`. -/
structure OnboardingRequestEntity where
  idempotencyKey : String
  requestHash : String
  correlationId : String
  userId : UUID
deriving DecidableEq

/-- A row of `user_compensation_receipts`. -/
structure UserCompensationReceiptEntity where
  idempotencyKey : String
  correlationId : String
  userId : UUID
deriving DecidableEq

/-- What the `varchar` columns of `users` keep of the user. -/
def UserEntity.stored (user : UserEntity) : Option UserEntity := do
  let email ← varchar 255 user.email
  let name ← varchar 120 user.name
  let cellphone ← varchar 40 user.cellphone
  let taxId ← varchar 32 user.taxId
  some
    { user with
      email := email
      name := name
      cellphone := cellphone
      taxId := taxId }

/-- What the columns of `onboarding_requests` keep. -/
def OnboardingRequestEntity.stored (request : OnboardingRequestEntity) :
    Option OnboardingRequestEntity := do
  let idempotencyKey ← varchar 128 request.idempotencyKey
  let requestHash ← varchar 128 request.requestHash
  let correlationId ← varchar 64 request.correlationId
  some
    { request with
      idempotencyKey := idempotencyKey
      requestHash := requestHash
      correlationId := correlationId }

/-- What the columns of `user_compensation_receipts` keep. -/
def UserCompensationReceiptEntity.stored (receipt : UserCompensationReceiptEntity) :
    Option UserCompensationReceiptEntity := do
  let idempotencyKey ← varchar 128 receipt.idempotencyKey
  let correlationId ← varchar 64 receipt.correlationId
  some
    { receipt with
      idempotencyKey := idempotencyKey
      correlationId := correlationId }

section Stored

theorem UserEntity.stored_eq_some_iff {user user' : UserEntity} :
    user.stored = some user' ↔ user'.id = user.id ∧
      varchar 255 user.email = some user'.email ∧ varchar 120 user.name = some user'.name ∧
      varchar 40 user.cellphone = some user'.cellphone ∧
      varchar 32 user.taxId = some user'.taxId ∧ user'.premium = user.premium := by
  obtain ⟨id, email, name, cellphone, taxId, premium⟩ := user'
  simp only [UserEntity.stored, Option.bind_eq_bind, Option.bind_eq_some_iff,
    Option.some.injEq, UserEntity.mk.injEq]
  constructor
  · rintro ⟨_, hemail, _, hname, _, hcellphone, _, htaxId, rfl, rfl, rfl, rfl, rfl, rfl⟩
    exact ⟨rfl, hemail, hname, hcellphone, htaxId, rfl⟩
  · rintro ⟨rfl, hemail, hname, hcellphone, htaxId, rfl⟩
    exact ⟨_, hemail, _, hname, _, hcellphone, _, htaxId, rfl, rfl, rfl, rfl, rfl, rfl⟩

theorem OnboardingRequestEntity.stored_eq_some_iff
    {request request' : OnboardingRequestEntity} :
    request.stored = some request' ↔
      varchar 128 request.idempotencyKey = some request'.idempotencyKey ∧
      varchar 128 request.requestHash = some request'.requestHash ∧
      varchar 64 request.correlationId = some request'.correlationId ∧
      request'.userId = request.userId := by
  obtain ⟨idempotencyKey, requestHash, correlationId, userId⟩ := request'
  simp only [OnboardingRequestEntity.stored, Option.bind_eq_bind, Option.bind_eq_some_iff,
    Option.some.injEq, OnboardingRequestEntity.mk.injEq]
  constructor
  · rintro ⟨_, hkey, _, hhash, _, hcorrelation, rfl, rfl, rfl, rfl⟩
    exact ⟨hkey, hhash, hcorrelation, rfl⟩
  · rintro ⟨hkey, hhash, hcorrelation, rfl⟩
    exact ⟨_, hkey, _, hhash, _, hcorrelation, rfl, rfl, rfl, rfl⟩

theorem UserCompensationReceiptEntity.stored_eq_some_iff
    {receipt receipt' : UserCompensationReceiptEntity} :
    receipt.stored = some receipt' ↔
      varchar 128 receipt.idempotencyKey = some receipt'.idempotencyKey ∧
      varchar 64 receipt.correlationId = some receipt'.correlationId ∧
      receipt'.userId = receipt.userId := by
  obtain ⟨idempotencyKey, correlationId, userId⟩ := receipt'
  simp only [UserCompensationReceiptEntity.stored, Option.bind_eq_bind,
    Option.bind_eq_some_iff, Option.some.injEq, UserCompensationReceiptEntity.mk.injEq]
  constructor
  · rintro ⟨_, hkey, _, hcorrelation, rfl, rfl, rfl⟩
    exact ⟨hkey, hcorrelation, rfl⟩
  · rintro ⟨hkey, hcorrelation, rfl⟩
    exact ⟨_, hkey, _, hcorrelation, rfl, rfl, rfl⟩

theorem UserEntity.stored_stored {user user' : UserEntity} (h : user.stored = some user') :
    user'.stored = some user' := by
  obtain ⟨_, hemail, hname, hcellphone, htaxId, _⟩ := stored_eq_some_iff.mp h
  exact stored_eq_some_iff.mpr ⟨rfl, varchar_stored hemail, varchar_stored hname,
    varchar_stored hcellphone, varchar_stored htaxId, rfl⟩

theorem OnboardingRequestEntity.stored_stored {request request' : OnboardingRequestEntity}
    (h : request.stored = some request') : request'.stored = some request' := by
  obtain ⟨hkey, hhash, hcorrelation, _⟩ := stored_eq_some_iff.mp h
  exact stored_eq_some_iff.mpr ⟨varchar_stored hkey, varchar_stored hhash,
    varchar_stored hcorrelation, rfl⟩

theorem UserCompensationReceiptEntity.stored_stored
    {receipt receipt' : UserCompensationReceiptEntity}
    (h : receipt.stored = some receipt') : receipt'.stored = some receipt' := by
  obtain ⟨hkey, hcorrelation, _⟩ := stored_eq_some_iff.mp h
  exact stored_eq_some_iff.mpr ⟨varchar_stored hkey, varchar_stored hcorrelation, rfl⟩

end Stored

/-- The rows hold what their columns keep. -/
structure IdentityDatabase where
  users : Table UserEntity.id
  onboardingRequests : Table OnboardingRequestEntity.idempotencyKey
  userCompensationReceipts : Table UserCompensationReceiptEntity.idempotencyKey
  stored_users : ∀ user ∈ users.rows, user.stored = some user
  stored_requests : ∀ request ∈ onboardingRequests.rows, request.stored = some request
  stored_receipts : ∀ receipt ∈ userCompensationReceipts.rows, receipt.stored = some receipt
  unique_email : ∀ a ∈ users.rows, ∀ b ∈ users.rows, a.email = b.email → a = b
  unique_taxId : ∀ a ∈ users.rows, ∀ b ∈ users.rows, a.taxId = b.taxId → a = b
  references : ∀ key request, onboardingRequests.row key = some request →
    (users.row request.userId).isSome

/-- No rows. -/
def IdentityDatabase.empty : IdentityDatabase where
  users := Table.empty
  onboardingRequests := Table.empty
  userCompensationReceipts := Table.empty
  stored_users := by
    intro user huser
    cases huser
  stored_requests := by
    intro request hrequest
    cases hrequest
  stored_receipts := by
    intro receipt hreceipt
    cases hreceipt
  unique_email := by
    intro a ha
    cases ha
  unique_taxId := by
    intro a ha
    cases ha
  references := by
    intro key request hrow
    cases hrow

def IdentityDatabase.existsByEmail (db : IdentityDatabase) (email : String) :
    Bool :=
  db.users.rows.any fun user => user.email = email

def IdentityDatabase.existsByTaxId (db : IdentityDatabase) (taxId : String) :
    Bool :=
  db.users.rows.any fun user => user.taxId = taxId

/-- The two inserts, of values that the columns keep as they are. -/
def IdentityDatabase.insertRows (db : IdentityDatabase) (user : UserEntity)
    (request : OnboardingRequestEntity) : Option IdentityDatabase :=
  if h : db.users.row user.id = none ∧
      (∀ other ∈ db.users.rows, other.email ≠ user.email) ∧
      (∀ other ∈ db.users.rows, other.taxId ≠ user.taxId) ∧
      db.onboardingRequests.row request.idempotencyKey = none ∧
      request.userId = user.id ∧ user.stored = some user ∧
      request.stored = some request then
    some
      { db with
        users := db.users.insertIfAbsent user
        onboardingRequests := db.onboardingRequests.insertIfAbsent request
        stored_users := by
          obtain ⟨hid, _, _, _, _, huser, _⟩ := h
          intro other hother
          rcases (Table.mem_rows_insertIfAbsent_iff hid).mp hother with rfl | hold
          · exact huser
          · exact db.stored_users other hold
        stored_requests := by
          obtain ⟨_, _, _, hkey, _, _, hrequest⟩ := h
          intro other hother
          rcases (Table.mem_rows_insertIfAbsent_iff hkey).mp hother with rfl | hold
          · exact hrequest
          · exact db.stored_requests other hold
        unique_email := Table.unique_insertIfAbsent UserEntity.email h.1 h.2.1 db.unique_email
        unique_taxId :=
          Table.unique_insertIfAbsent UserEntity.taxId h.1 h.2.2.1 db.unique_taxId
        references := by
          obtain ⟨hid, _, _, hkey, hreference, _⟩ := h
          intro key stored hrow
          rw [Option.isSome_iff_exists]
          rcases (Table.row_insertIfAbsent_iff hkey).mp hrow with ⟨_, rfl⟩ | hrow
          · exact ⟨user, (Table.row_insertIfAbsent_iff hid).mpr (.inl ⟨hreference, rfl⟩)⟩
          · obtain ⟨owner, howner⟩ :=
              Option.isSome_iff_exists.mp (db.references key stored hrow)
            exact ⟨owner, (Table.row_insertIfAbsent_iff hid).mpr (.inr howner)⟩ }
  else none

/-- The two inserts that a `createUser` flushes; `none` is a value that a column refuses or
a violated constraint, which rolls both back. -/
def IdentityDatabase.insertUser (db : IdentityDatabase) (user : UserEntity)
    (request : OnboardingRequestEntity) : Option IdentityDatabase :=
  user.stored.bind fun user => request.stored.bind fun request => db.insertRows user request

/-- The insert of a value that the columns keep as it is, and the deletes. -/
def IdentityDatabase.compensateRows (db : IdentityDatabase)
    (receipt : UserCompensationReceiptEntity) : Option IdentityDatabase :=
  if h : receipt.stored = some receipt ∧
      db.userCompensationReceipts.row receipt.idempotencyKey = none then
    some
      { users := db.users.restrict fun user => user.id ≠ receipt.userId
        onboardingRequests := db.onboardingRequests.restrict fun request =>
          request.userId ≠ receipt.userId
        userCompensationReceipts :=
          db.userCompensationReceipts.insertIfAbsent receipt
        stored_users := fun user huser =>
          db.stored_users user (Table.mem_rows_restrict_iff.mp huser).1
        stored_requests := fun request hrequest =>
          db.stored_requests request (Table.mem_rows_restrict_iff.mp hrequest).1
        stored_receipts := by
          intro other hother
          rcases (Table.mem_rows_insertIfAbsent_iff h.2).mp hother with rfl | hold
          · exact h.1
          · exact db.stored_receipts other hold
        unique_email := fun a ha b hb => db.unique_email a
          (Table.mem_rows_restrict_iff.mp ha).1 b (Table.mem_rows_restrict_iff.mp hb).1
        unique_taxId := fun a ha b hb => db.unique_taxId a
          (Table.mem_rows_restrict_iff.mp ha).1 b (Table.mem_rows_restrict_iff.mp hb).1
        references := by
          intro key request hrow
          rw [Table.row_restrict, Option.filter_eq_some_iff] at hrow
          obtain ⟨owner, howner⟩ :=
            Option.isSome_iff_exists.mp (db.references key request hrow.1)
          have hid := db.users.key_row _ _ howner
          simpa [Table.row_restrict, howner, hid] using hrow.2 }
  else none

/-- The insert and the deletes that a `compensateUser` flushes. -/
def IdentityDatabase.compensate (db : IdentityDatabase)
    (receipt : UserCompensationReceiptEntity) : Option IdentityDatabase :=
  receipt.stored.bind db.compensateRows

section Specifications

variable {db db' : IdentityDatabase}

/-- What an insert of a user and its request has found and leaves. -/
structure Inserted (db db' : IdentityDatabase) (user : UserEntity)
    (request : OnboardingRequestEntity) (user' : UserEntity)
    (request' : OnboardingRequestEntity) : Prop where
  storedUser : user.stored = some user'
  storedRequest : request.stored = some request'
  id : db.users.row user'.id = none
  email : ∀ other ∈ db.users.rows, other.email ≠ user'.email
  taxId : ∀ other ∈ db.users.rows, other.taxId ≠ user'.taxId
  key : db.onboardingRequests.row request'.idempotencyKey = none
  reference : request'.userId = user'.id
  users : db'.users = db.users.insertIfAbsent user'
  requests : db'.onboardingRequests = db.onboardingRequests.insertIfAbsent request'
  receipts : db'.userCompensationReceipts = db.userCompensationReceipts

theorem insertUser_some {user : UserEntity} {request : OnboardingRequestEntity}
    (h : db.insertUser user request = some db') :
    ∃ user' request', Inserted db db' user request user' request' := by
  obtain ⟨user', huser, h⟩ := Option.bind_eq_some_iff.mp h
  obtain ⟨request', hrequest, h⟩ := Option.bind_eq_some_iff.mp h
  unfold IdentityDatabase.insertRows at h
  split at h
  · rename_i hconstraints
    obtain ⟨hid, hemail, htaxId, hkey, hreference, _⟩ := hconstraints
    obtain rfl := Option.some.inj h
    exact ⟨user', request', huser, hrequest, hid, hemail, htaxId, hkey, hreference, rfl, rfl,
      rfl⟩
  · cases h

namespace Inserted

variable {user user' : UserEntity} {request request' : OnboardingRequestEntity}

theorem user_id (h : Inserted db db' user request user' request') : user'.id = user.id :=
  (UserEntity.stored_eq_some_iff.mp h.storedUser).1

theorem row_user_iff (h : Inserted db db' user request user' request') {id : UUID}
    {other : UserEntity} : db'.users.row id = some other ↔
      (id = user.id ∧ other = user') ∨ db.users.row id = some other := by
  rw [h.users, ← h.user_id]
  exact Table.row_insertIfAbsent_iff h.id

theorem row_request_iff (h : Inserted db db' user request user' request') {key : String}
    {other : OnboardingRequestEntity} : db'.onboardingRequests.row key = some other ↔
      (key = request'.idempotencyKey ∧ other = request') ∨
        db.onboardingRequests.row key = some other := by
  rw [h.requests]
  exact Table.row_insertIfAbsent_iff h.key

theorem free_id (h : Inserted db db' user request user' request') :
    db.users.row user.id = none := h.user_id ▸ h.id

theorem varchar_key (h : Inserted db db' user request user' request') :
    varchar 128 request.idempotencyKey = some request'.idempotencyKey :=
  (OnboardingRequestEntity.stored_eq_some_iff.mp h.storedRequest).1

end Inserted

/-- What a compensation has found and leaves. -/
structure Removed (db db' : IdentityDatabase)
    (receipt receipt' : UserCompensationReceiptEntity) : Prop where
  stored : receipt.stored = some receipt'
  key : db.userCompensationReceipts.row receipt'.idempotencyKey = none
  users : db'.users = db.users.restrict (fun user => user.id ≠ receipt.userId)
  requests : db'.onboardingRequests = db.onboardingRequests.restrict
    (fun request => request.userId ≠ receipt.userId)
  receipts : db'.userCompensationReceipts =
    db.userCompensationReceipts.insertIfAbsent receipt'

theorem Removed.userId {receipt receipt' : UserCompensationReceiptEntity}
    (h : Removed db db' receipt receipt') : receipt'.userId = receipt.userId :=
  (UserCompensationReceiptEntity.stored_eq_some_iff.mp h.stored).2.2

theorem compensate_some {receipt : UserCompensationReceiptEntity}
    (h : db.compensate receipt = some db') :
    ∃ receipt', Removed db db' receipt receipt' := by
  obtain ⟨receipt', hreceipt, h⟩ := Option.bind_eq_some_iff.mp h
  have hid := (UserCompensationReceiptEntity.stored_eq_some_iff.mp hreceipt).2.2
  unfold IdentityDatabase.compensateRows at h
  split at h
  · rename_i hconstraints
    obtain rfl := Option.some.inj h
    refine ⟨receipt', hreceipt, hconstraints.2, ?_, ?_, rfl⟩
    · simp only [hid]
    · simp only [hid]
  · cases h

theorem compensate_of_stored {receipt receipt' : UserCompensationReceiptEntity}
    (hstored : receipt.stored = some receipt')
    (hkey : db.userCompensationReceipts.row receipt'.idempotencyKey = none) :
    ∃ db', db.compensate receipt = some db' := by
  have hkept := UserCompensationReceiptEntity.stored_stored hstored
  rw [IdentityDatabase.compensate, hstored, Option.bind_some,
    IdentityDatabase.compensateRows, dif_pos ⟨hkept, hkey⟩]
  exact ⟨_, rfl⟩

theorem varchar_of_row_request {key : String} {request : OnboardingRequestEntity}
    (hrow : db.onboardingRequests.row key = some request) : varchar 128 key = some key := by
  have hstored := OnboardingRequestEntity.stored_eq_some_iff.mp
    (db.stored_requests request (Table.mem_rows_of_row hrow))
  rw [db.onboardingRequests.key_row key request hrow] at hstored
  exact hstored.1

theorem varchar_of_row_receipt {key : String} {receipt : UserCompensationReceiptEntity}
    (hrow : db.userCompensationReceipts.row key = some receipt) :
    varchar 128 key = some key := by
  have hstored := UserCompensationReceiptEntity.stored_eq_some_iff.mp
    (db.stored_receipts receipt (Table.mem_rows_of_row hrow))
  rw [db.userCompensationReceipts.key_row key receipt hrow] at hstored
  exact hstored.1

theorem row_request_of_stored {request request' : OnboardingRequestEntity}
    (h : request.stored = some request')
    (hkey : db.onboardingRequests.row request'.idempotencyKey = none) :
    db.onboardingRequests.row request.idempotencyKey = none := by
  cases hrow : db.onboardingRequests.row request.idempotencyKey with
  | none => rfl
  | some found =>
      have hcut := (OnboardingRequestEntity.stored_eq_some_iff.mp h).1
      rw [← Option.some.inj ((varchar_of_row_request hrow).symm.trans hcut), hrow] at hkey
      cases hkey

theorem row_receipt_of_stored {receipt receipt' : UserCompensationReceiptEntity}
    (h : receipt.stored = some receipt')
    (hkey : db.userCompensationReceipts.row receipt'.idempotencyKey = none) :
    db.userCompensationReceipts.row receipt.idempotencyKey = none := by
  cases hrow : db.userCompensationReceipts.row receipt.idempotencyKey with
  | none => rfl
  | some found =>
      have hcut := (UserCompensationReceiptEntity.stored_eq_some_iff.mp h).1
      rw [← Option.some.inj ((varchar_of_row_receipt hrow).symm.trans hcut), hrow] at hkey
      cases hkey

theorem row_users_compensate {receipt : UserCompensationReceiptEntity}
    (h : db.compensate receipt = some db') (id : UUID) :
    db'.users.row id =
      if id = receipt.userId then none else db.users.row id := by
  obtain ⟨_, hremoved⟩ := compensate_some h
  rw [hremoved.users, Table.row_restrict]
  cases hrow : db.users.row id with
  | none => simp
  | some user =>
      have hid := db.users.key_row id user hrow
      simp only [Option.filter_some, hid]
      split <;> simp_all

theorem row_requests_compensate {receipt : UserCompensationReceiptEntity}
    (h : db.compensate receipt = some db') {key : String}
    {request : OnboardingRequestEntity}
    (hrow : db.onboardingRequests.row key = some request)
    (hother : request.userId ≠ receipt.userId) :
    db'.onboardingRequests.row key = some request := by
  obtain ⟨_, hremoved⟩ := compensate_some h
  rw [hremoved.requests, Table.row_restrict, hrow]
  simp [hother]

end Specifications

end Modularis.Identity.Database
