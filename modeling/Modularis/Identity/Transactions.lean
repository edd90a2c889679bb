import Modularis.Identity.Redelivery

/-!
The transactions of `IdentityApplicationService` side by side.  A statement reads
what is committed when it runs; a commit writes everything that its transaction has
saved, or nothing if that violates a constraint.
-/

namespace Modularis.Identity.Transactions

open Modularis.Foundation
open Modularis.Foundation.Column
open Modularis.Shared.Uuid
open Modularis.Identity.Database
open Modularis.Identity.Service

/-- The statement of a `createUser` that comes next, with the rows that `save` has
found under the keys of its objects. -/
inductive CreateStatement where
  | findRequest
  | existsByEmail
  | existsByTaxId
  | saveUser
  | saveRequest (userFound : Option UserEntity)
  | commit (userFound : Option UserEntity)
      (requestFound : Option OnboardingRequestEntity)
deriving DecidableEq

/-- `deleted` are the rows that `deleteByUserId` has deleted. -/
inductive CompensateStatement where
  | findReceipt
  | findUser (userId : UUID)
  | saveReceipt (userId : UUID) (user : Option UserEntity)
  | deleteByUserId (userId : UUID) (user : Option UserEntity)
      (receiptFound : Option UserCompensationReceiptEntity)
  | commit (userId : UUID) (user : Option UserEntity)
      (receiptFound : Option UserCompensationReceiptEntity)
      (deleted : List OnboardingRequestEntity)
deriving DecidableEq

/-- A transaction goes on with another statement or has ended. -/
inductive Outcome (σ α : Type) where
  | goes (next : σ)
  | ends (answer : α) (db : IdentityDatabase)

/-- A saved object that was found overwrites a row with a null `created_at`, which
violates its constraint. -/
def commitCreation (db : IdentityDatabase) (user : UserEntity)
    (request : OnboardingRequestEntity) (userFound : Option UserEntity)
    (requestFound : Option OnboardingRequestEntity) : Option IdentityDatabase :=
  if userFound = none ∧ requestFound = none then db.insertUser user request else none

/-- The commit with a receipt that the columns keep as it is.  The loaded user must still be
there and no longer be referenced. -/
def commitRows (db : IdentityDatabase) (receipt : UserCompensationReceiptEntity)
    (user : Option UserEntity) (receiptFound : Option UserCompensationReceiptEntity)
    (deleted : List OnboardingRequestEntity) : Option IdentityDatabase :=
  if h : receiptFound = none ∧ receipt.stored = some receipt ∧
      db.userCompensationReceipts.row receipt.idempotencyKey = none ∧
      (∀ owner ∈ user, (db.users.row owner.id).isSome) ∧
      ∀ owner ∈ user, ∀ request ∈ db.onboardingRequests.rows, request ∉ deleted →
        request.userId ≠ owner.id then
    some
      { users := db.users.restrict fun row => decide (∀ owner ∈ user, row.id ≠ owner.id)
        onboardingRequests := db.onboardingRequests.restrict fun row =>
          decide (row ∉ deleted)
        userCompensationReceipts := db.userCompensationReceipts.insertIfAbsent receipt
        stored_users := fun row hrow => db.stored_users row (Table.mem_rows_restrict_iff.mp hrow).1
        stored_requests := fun row hrow =>
          db.stored_requests row (Table.mem_rows_restrict_iff.mp hrow).1
        stored_receipts := by
          obtain ⟨_, hreceipt, hkey, _⟩ := h
          intro other hother
          rcases (Table.mem_rows_insertIfAbsent_iff hkey).mp hother with rfl | hold
          · exact hreceipt
          · exact db.stored_receipts other hold
        unique_email := fun a ha b hb => db.unique_email a (Table.mem_rows_restrict_iff.mp ha).1 b
          (Table.mem_rows_restrict_iff.mp hb).1
        unique_taxId := fun a ha b hb => db.unique_taxId a (Table.mem_rows_restrict_iff.mp ha).1 b
          (Table.mem_rows_restrict_iff.mp hb).1
        references := by
          intro key request hrow
          rw [Table.row_restrict, Option.filter_eq_some_iff, decide_eq_true_iff] at hrow
          obtain ⟨owner, howner⟩ :=
            Option.isSome_iff_exists.mp (db.references key request hrow.1)
          have hid := db.users.key_row _ _ howner
          have hrequest := Table.mem_rows_of_row hrow.1
          have hkept : ∀ loaded ∈ user, owner.id ≠ loaded.id := by
            intro loaded hloaded
            rw [hid]
            exact h.2.2.2.2 loaded hloaded request hrequest hrow.2
          rw [Table.row_restrict, howner, Option.filter_some, if_pos (decide_eq_true hkept)]
          rfl }
  else none

/-- The end of a compensation; `none` is an error that rolls it back. -/
def commitCompensation (db : IdentityDatabase) (receipt : UserCompensationReceiptEntity)
    (user : Option UserEntity) (receiptFound : Option UserCompensationReceiptEntity)
    (deleted : List OnboardingRequestEntity) : Option IdentityDatabase :=
  receipt.stored.bind fun receipt => commitRows db receipt user receiptFound deleted

/-- `randomUUID` is what `UUID.randomUUID()` draws if the method gets there. -/
def CreateStatement.execute (db : IdentityDatabase) (command : UserCreateCommandMessage)
    (randomUUID : UUID) : CreateStatement →
    Outcome CreateStatement (Except RpcErrorPayload UserCreateCommandResult)
  | .findRequest =>
      if isText command.payload.idempotencyKey = false then
        .ends (.error userCommandFailed) db
      else
        match db.onboardingRequests.row command.payload.idempotencyKey with
        | some request =>
            if request.requestHash ≠ command.payload.requestHash then
              .ends (.error (conflict
                "Idempotency-Key was already used with a different payload"
                "IDEMPOTENCY_KEY_REUSED")) db
            else
              match db.users.row request.userId with
              | some user => .ends (.ok { user := toPayload user, replayed := true }) db
              | none => .ends (.error userCommandFailed) db
        | none => .goes .existsByEmail
  | .existsByEmail =>
      if isText command.payload.email = false then .ends (.error userCommandFailed) db
      else if db.existsByEmail command.payload.email then
        .ends (.error (conflict "Email is already registered" "EMAIL_ALREADY_EXISTS")) db
      else .goes .existsByTaxId
  | .existsByTaxId =>
      if isText command.payload.taxId = false then .ends (.error userCommandFailed) db
      else if db.existsByTaxId command.payload.taxId then
        .ends (.error (conflict "Tax ID is already registered"
          "TAX_ID_ALREADY_EXISTS")) db
      else .goes .saveUser
  | .saveUser => .goes (.saveRequest (db.users.row randomUUID))
  | .saveRequest userFound =>
      .goes (.commit userFound
        (db.onboardingRequests.row command.payload.idempotencyKey))
  | .commit userFound requestFound =>
      match commitCreation db (newUser command randomUUID)
          (newRequest command randomUUID) userFound requestFound with
      | some db' =>
          .ends (.ok
            { user := toPayload (newUser command randomUUID)
              replayed := false }) db'
      | none => .ends (.error userCommandFailed) db

/-- The next statement of a compensation. -/
def CompensateStatement.execute (db : IdentityDatabase)
    (command : UserCompensationCommandMessage) : CompensateStatement →
    Outcome CompensateStatement (Except RpcErrorPayload CompensationCommandResult)
  | .findReceipt =>
      if isText command.payload.idempotencyKey = false then
        .ends (.error userCommandFailed) db
      else
        match db.userCompensationReceipts.row command.payload.idempotencyKey with
        | some receipt =>
            if receipt.userId.toString ≠ command.payload.userId then
              .ends (.error (conflict
                "Idempotency-Key was already used with a different compensation target"
                "IDEMPOTENCY_KEY_REUSED")) db
            else .ends (.ok { compensated := true, replayed := true }) db
        | none =>
            match UUID.fromString command.payload.userId with
            | some userId => .goes (.findUser userId)
            | none => .ends (.error userCommandFailed) db
  | .findUser userId =>
      if (db.users.row userId).any UserEntity.premium then
        .ends (.error (conflict
          "Premium users cannot be compensated through onboarding rollback"
          "USER_ALREADY_PREMIUM")) db
      else .goes (.saveReceipt userId (db.users.row userId))
  | .saveReceipt userId user =>
      .goes (.deleteByUserId userId user
        (db.userCompensationReceipts.row command.payload.idempotencyKey))
  | .deleteByUserId userId user receiptFound =>
      .goes (.commit userId user receiptFound
        (db.onboardingRequests.rows.filter fun request => request.userId = userId))
  | .commit userId user receiptFound deleted =>
      match commitCompensation db (newReceipt command userId) user receiptFound
          deleted with
      | some db' => .ends (.ok { compensated := true, replayed := false }) db'
      | none => .ends (.error userCommandFailed) db

/-- A transaction with the statement that it has come to. -/
inductive Transaction where
  | createUser (command : UserCreateCommandMessage) (randomUUID : UUID)
      (statement : CreateStatement)
  | compensateUser (command : UserCompensationCommandMessage)
      (statement : CompensateStatement)
deriving DecidableEq

/-- An answer with the command that it is for. -/
inductive Answer where
  | created (command : UserCreateCommandMessage)
      (answer : Except RpcErrorPayload UserCreateCommandResult)
  | compensated (command : UserCompensationCommandMessage)
      (answer : Except RpcErrorPayload CompensationCommandResult)

/-- The next statement of a transaction. -/
def Transaction.execute (db : IdentityDatabase) :
    Transaction → Outcome Transaction Answer
  | .createUser command randomUUID statement =>
      match statement.execute db command randomUUID with
      | .goes next => .goes (.createUser command randomUUID next)
      | .ends answer db' => .ends (.created command answer) db'
  | .compensateUser command statement =>
      match statement.execute db command with
      | .goes next => .goes (.compensateUser command next)
      | .ends answer db' => .ends (.compensated command answer) db'

/-- `used` are the user ids drawn or named so far; `secret` are those drawn by
transactions that have not committed their user. -/
structure World where
  db : IdentityDatabase
  transactions : Nat → Option Transaction
  used : List UUID
  secret : List UUID

/-- No transaction runs, and no id was drawn. -/
def World.init : World where
  db := IdentityDatabase.empty
  transactions := fun _ => none
  used := []
  secret := []

/-- A transaction is at another statement, or gone. -/
def World.set (world : World) (tx : Nat) (transaction : Option Transaction) : World :=
  { world with transactions := Function.update world.transactions tx transaction }

@[simp] theorem World.transactions_set_self (world : World) (tx : Nat)
    (transaction : Option Transaction) :
    (world.set tx transaction).transactions tx = transaction :=
  Function.update_self ..

theorem World.transactions_set_of_ne (world : World) {tx tx' : Nat} (h : tx' ≠ tx)
    (transaction : Option Transaction) :
    (world.set tx transaction).transactions tx' = world.transactions tx' :=
  Function.update_of_ne h ..

/-- A transaction begins, executes its next statement, or is rolled back. -/
inductive Event where
  | createUser (tx : Nat) (command : UserCreateCommandMessage) (randomUUID : UUID)
  | compensateUser (tx : Nat) (command : UserCompensationCommandMessage)
  | execute (tx : Nat)
  | rollback (tx : Nat)
deriving DecidableEq

/-- A drawn id is a new one, and no command names it before its user is there. -/
def step (world : World) : Event → Option World
  | .createUser tx command randomUUID =>
      if world.transactions tx = none ∧ randomUUID ∉ world.used then
        some
          { world.set tx (some (.createUser command randomUUID .findRequest)) with
            used := randomUUID :: world.used
            secret := randomUUID :: world.secret }
      else none
  | .compensateUser tx command =>
      if world.transactions tx = none ∧
          ∀ userId ∈ UUID.fromString command.payload.userId, userId ∉ world.secret then
        some
          { world.set tx (some (.compensateUser command .findReceipt)) with
            used := (UUID.fromString command.payload.userId).toList ++ world.used }
      else none
  | .execute tx =>
      match world.transactions tx with
      | none => none
      | some transaction =>
          match transaction.execute world.db with
          | .goes next => some (world.set tx (some next))
          | .ends _ db =>
              some
                { world.set tx none with
                  db := db
                  secret := world.secret.filter fun id => (db.users.row id).isNone }
  | .rollback tx => some (world.set tx none)

abbrev Run := StepSystem.Run step World.init

/-- The answer that a step gives. -/
def answered (p : World × Event) : Option Answer :=
  match p.2 with
  | .execute tx =>
      match (p.1.transactions tx).map (Transaction.execute p.1.db) with
      | some (.ends answer _) => some answer
      | _ => none
  | _ => none

theorem step_execute_cases {world next : World} {tx : Nat}
    (hstep : step world (.execute tx) = some next) :
    ∃ transaction, world.transactions tx = some transaction ∧
      ((∃ moved, transaction.execute world.db = .goes moved ∧
          next = world.set tx (some moved) ∧ answered (world, .execute tx) = none) ∨
        ∃ answer db, transaction.execute world.db = .ends answer db ∧
          next =
            { world.set tx none with
              db := db
              secret := world.secret.filter fun id => (db.users.row id).isNone } ∧
          answered (world, .execute tx) = some answer) := by
  cases htx : world.transactions tx with
  | none => simp [step, htx] at hstep
  | some transaction =>
      refine ⟨transaction, rfl, ?_⟩
      cases hexecute : transaction.execute world.db with
      | goes moved =>
          simp only [step, htx, hexecute, Option.some.injEq] at hstep
          exact .inl ⟨moved, rfl, hstep.symm, by simp [answered, htx, hexecute]⟩
      | ends answer db =>
          simp only [step, htx, hexecute, Option.some.injEq] at hstep
          exact .inr ⟨answer, db, rfl, hstep.symm, by simp [answered, htx, hexecute]⟩

section Commits

variable {db db' : IdentityDatabase}

theorem eq_of_tables (husers : db.users = db'.users)
    (hrequests : db.onboardingRequests = db'.onboardingRequests)
    (hreceipts : db.userCompensationReceipts = db'.userCompensationReceipts) :
    db = db' := by
  cases db
  cases db'
  simp only at husers hrequests hreceipts
  subst husers hrequests hreceipts
  rfl

theorem insertUser_of_commitCreation {user : UserEntity}
    {request : OnboardingRequestEntity} {userFound : Option UserEntity}
    {requestFound : Option OnboardingRequestEntity}
    (h : commitCreation db user request userFound requestFound = some db') :
    db.insertUser user request = some db' :=
  (Option.ite_none_right_eq_some.mp h).2

theorem not_exists_of_insertUser {user user' : UserEntity}
    {request request' : OnboardingRequestEntity}
    (h : Inserted db db' user request user' request') :
    db.existsByEmail user.email = false ∧ db.existsByTaxId user.taxId = false := by
  obtain ⟨_, hemail, _, _, htaxId, _⟩ := UserEntity.stored_eq_some_iff.mp h.storedUser
  constructor
  · simp only [IdentityDatabase.existsByEmail, List.any_eq_false, decide_eq_true_iff]
    intro other hother hsame
    obtain ⟨_, hkept, _⟩ := UserEntity.stored_eq_some_iff.mp (db.stored_users other hother)
    rw [hsame] at hkept
    exact h.email other hother (hsame.trans (Option.some.inj (hkept.symm.trans hemail)))
  · simp only [IdentityDatabase.existsByTaxId, List.any_eq_false, decide_eq_true_iff]
    intro other hother hsame
    obtain ⟨_, _, _, _, hkept, _⟩ :=
      UserEntity.stored_eq_some_iff.mp (db.stored_users other hother)
    rw [hsame] at hkept
    exact h.taxId other hother (hsame.trans (Option.some.inj (hkept.symm.trans htaxId)))

/-- What a `compensateUser` has read of its user, which may be gone by now. -/
structure Read (db : IdentityDatabase) (userId : UUID) (user : Option UserEntity) :
    Prop where
  row : db.users.row userId = user ∨ db.users.row userId = none
  id : ∀ owner ∈ user, owner.id = userId
  regular : user.any UserEntity.premium = false

/-- A commit that violates no constraint finds the user as it was read and leaves
what the whole command would leave. -/
theorem compensate_of_commitCompensation {receipt : UserCompensationReceiptEntity}
    {user : Option UserEntity} {receiptFound : Option UserCompensationReceiptEntity}
    {deleted : List OnboardingRequestEntity}
    (h : commitCompensation db receipt user receiptFound deleted = some db')
    (hread : Read db receipt.userId user)
    (hdeleted : ∀ request ∈ deleted, request.userId = receipt.userId) :
    db.userCompensationReceipts.row receipt.idempotencyKey = none ∧
      db.users.row receipt.userId = user ∧ db.compensate receipt = some db' := by
  obtain ⟨receipt', hstored, h⟩ := Option.bind_eq_some_iff.mp h
  have huserId := (UserCompensationReceiptEntity.stored_eq_some_iff.mp hstored).2.2
  rw [← huserId] at hread hdeleted
  unfold commitRows at h
  split at h
  swap
  · cases h
  rename_i hconstraints
  obtain ⟨_, hkept, hnew, hthere, hfree⟩ := hconstraints
  have hrow : db.users.row receipt'.userId = user := by
    rcases hread.row with hrow | hgone
    · exact hrow
    · cases user with
      | none => exact hgone
      | some owner =>
          have hsome := hthere owner rfl
          rw [hread.id owner rfl, hgone] at hsome
          cases hsome
  refine ⟨row_receipt_of_stored hstored hnew, huserId ▸ hrow, ?_⟩
  obtain rfl := Option.some.inj h
  rw [IdentityDatabase.compensate, hstored, Option.bind_some,
    IdentityDatabase.compensateRows, dif_pos ⟨hkept, hnew⟩, Option.some.injEq]
  apply eq_of_tables
  · apply Table.restrict_congr
    intro id row hid
    rw [decide_eq_decide]
    constructor
    · intro hne owner howner
      rw [hread.id owner howner]
      exact hne
    · intro hne hsame
      rw [← db.users.key_row id row hid, hsame, hrow] at hid
      exact hne row hid rfl
  · apply Table.restrict_congr
    intro key request hkey
    rw [decide_eq_decide]
    constructor
    · intro hne hmem
      exact hne (hdeleted request hmem)
    · intro hkept hsame
      obtain ⟨owner, howner⟩ :=
        Option.isSome_iff_exists.mp (db.references key request hkey)
      rw [hsame, hrow] at howner
      refine hfree owner howner request (Table.mem_rows_of_row hkey) hkept ?_
      rw [hsame, hread.id owner howner]
  · rfl

end Commits

section Answers

variable {db db' : IdentityDatabase}

theorem createUser_of_insertUser {command : UserCreateCommandMessage} {randomUUID : UUID}
    (h : db.insertUser (newUser command randomUUID) (newRequest command randomUUID) =
      some db') :
    createUser db command randomUUID =
      (.ok { user := toPayload (newUser command randomUUID), replayed := false }, db') := by
  obtain ⟨user', request', hinserted⟩ := insertUser_some h
  obtain ⟨hemail, htaxId⟩ := not_exists_of_insertUser hinserted
  have hkey := row_request_of_stored hinserted.storedRequest hinserted.key
  have huser := UserEntity.stored_eq_some_iff.mp hinserted.storedUser
  have hrequest := OnboardingRequestEntity.stored_eq_some_iff.mp hinserted.storedRequest
  have hkeyText := isText_of_varchar hrequest.1
  have hemailText := isText_of_varchar huser.2.1
  have htaxIdText := isText_of_varchar huser.2.2.2.2.1
  simp only [newUser, newRequest] at h hkey hemail htaxId hkeyText hemailText htaxIdText
  simp only [createUser, hkeyText, hkey, hemailText, hemail, htaxIdText, htaxId, h, newUser,
    Bool.true_eq_false, Bool.false_eq_true, if_false]

theorem createUser_of_ends {command : UserCreateCommandMessage} {randomUUID : UUID}
    {statement : CreateStatement} {result : UserCreateCommandResult}
    (h : statement.execute db command randomUUID = .ends (.ok result) db') :
    createUser db command randomUUID = (.ok result, db') := by
  cases statement with
  | findRequest =>
      simp only [CreateStatement.execute] at h
      split at h
      · cases h
      split at h
      · rename_i request hrow
        split at h
        · cases h
        · rename_i hhash
          split at h
          · rename_i user huser
            cases h
            exact createUser_replay db randomUUID hrow (not_not.mp hhash) huser
          · cases h
      · cases h
  | existsByEmail =>
      simp only [CreateStatement.execute] at h
      split at h
      · cases h
      split at h
      · cases h
      · cases h
  | existsByTaxId =>
      simp only [CreateStatement.execute] at h
      split at h
      · cases h
      split at h
      · cases h
      · cases h
  | saveUser => cases h
  | saveRequest userFound => cases h
  | commit userFound requestFound =>
      simp only [CreateStatement.execute] at h
      split at h
      · rename_i committed hcommit
        cases h
        exact createUser_of_insertUser (insertUser_of_commitCreation hcommit)
      · cases h

theorem db_of_ends_createUser {command : UserCreateCommandMessage} {randomUUID : UUID}
    {statement : CreateStatement} {error : RpcErrorPayload}
    (h : statement.execute db command randomUUID = .ends (.error error) db') :
    db' = db := by
  cases statement <;> simp only [CreateStatement.execute] at h <;>
    repeat' split at h
  all_goals cases h
  all_goals rfl

/-- What a `compensateUser` has read before a statement. -/
def CompensateStatement.Reads (db : IdentityDatabase)
    (command : UserCompensationCommandMessage) : CompensateStatement → Prop
  | .findReceipt => True
  | .findUser userId => UUID.fromString command.payload.userId = some userId
  | .saveReceipt userId user | .deleteByUserId userId user _ =>
      UUID.fromString command.payload.userId = some userId ∧ Read db userId user
  | .commit userId user _ deleted =>
      UUID.fromString command.payload.userId = some userId ∧ Read db userId user ∧
        ∀ request ∈ deleted, request.userId = userId

theorem compensateUser_of_ends {command : UserCompensationCommandMessage}
    {statement : CompensateStatement} {result : CompensationCommandResult}
    (hreads : statement.Reads db command)
    (h : statement.execute db command = .ends (.ok result) db') :
    compensateUser db command = (.ok result, db') := by
  cases statement with
  | findReceipt =>
      simp only [CompensateStatement.execute] at h
      split at h
      · cases h
      split at h
      · rename_i receipt hrow
        split at h
        · cases h
        · rename_i htarget
          cases h
          simp [compensateUser, isText_of_receipt db hrow, hrow, not_not.mp htarget]
      · split at h
        · cases h
        · cases h
  | findUser userId =>
      simp only [CompensateStatement.execute] at h
      split at h
      · cases h
      · cases h
  | saveReceipt userId user => cases h
  | deleteByUserId userId user receiptFound => cases h
  | commit userId user receiptFound deleted =>
      obtain ⟨htarget, hread, hdeleted⟩ := hreads
      simp only [CompensateStatement.execute] at h
      split at h
      · rename_i committed hcommit
        cases h
        obtain ⟨hnew, hrow, hcompensate⟩ :=
          compensate_of_commitCompensation hcommit hread hdeleted
        obtain ⟨receipt, hremoved⟩ := compensate_some hcompensate
        have htext : isText command.payload.idempotencyKey = true := isText_of_varchar
          (UserCompensationReceiptEntity.stored_eq_some_iff.mp hremoved.stored).1
        simp only [newReceipt] at hnew hrow hcompensate
        have hregular := hread.regular
        rw [← hrow] at hregular
        simp only [compensateUser, htext, hnew, htarget, hregular, hcompensate,
          Bool.true_eq_false, Bool.false_eq_true, if_false]
      · cases h

theorem db_of_ends_compensateUser {command : UserCompensationCommandMessage}
    {statement : CompensateStatement} {error : RpcErrorPayload}
    (h : statement.execute db command = .ends (.error error) db') : db' = db := by
  cases statement <;> simp only [CompensateStatement.execute] at h <;>
    repeat' split at h
  all_goals cases h
  all_goals rfl

theorem reads_of_goes {command : UserCompensationCommandMessage}
    {statement next : CompensateStatement} (hreads : statement.Reads db command)
    (h : statement.execute db command = .goes next) : next.Reads db command := by
  cases statement with
  | findReceipt =>
      simp only [CompensateStatement.execute] at h
      split at h
      · cases h
      split at h
      · split at h
        · cases h
        · cases h
      · split at h
        · rename_i userId htarget
          cases h
          exact htarget
        · cases h
  | findUser userId =>
      simp only [CompensateStatement.execute] at h
      split at h
      · cases h
      · rename_i hregular
        cases h
        refine ⟨hreads, .inl rfl, ?_, Bool.eq_false_iff.mpr hregular⟩
        intro owner howner
        exact db.users.key_row userId owner howner
  | saveReceipt userId user =>
      cases h
      exact hreads
  | deleteByUserId userId user receiptFound =>
      cases h
      exact ⟨hreads.1, hreads.2, by simp⟩
  | commit userId user receiptFound deleted =>
      simp only [CompensateStatement.execute] at h
      split at h
      · cases h
      · cases h

end Answers

section Alone

variable (db : IdentityDatabase)

/-- Run the statements of a transaction one after the other on one database. -/
def alone {σ α : Type} (execute : σ → Outcome σ α) : Nat → σ →
    Option (α × IdentityDatabase)
  | 0, _ => none
  | steps + 1, statement =>
      match execute statement with
      | .goes next => alone execute steps next
      | .ends answer db => some (answer, db)

theorem commitCreation_alone (user : UserEntity) (request : OnboardingRequestEntity) :
    commitCreation db user request (db.users.row user.id) none =
      db.insertUser user request := by
  cases huser : db.users.row user.id with
  | none => rfl
  | some found =>
      rw [commitCreation, if_neg (by simp)]
      cases hinsert : db.insertUser user request with
      | none => rfl
      | some db' =>
          obtain ⟨_, _, hinserted⟩ := insertUser_some hinsert
          rw [hinserted.free_id] at huser
          cases huser

theorem createUser_alone_of_new {command : UserCreateCommandMessage} {randomUUID : UUID}
    (hkey : isText command.payload.idempotencyKey = true)
    (hrow : db.onboardingRequests.row command.payload.idempotencyKey = none) :
    alone (CreateStatement.execute db command randomUUID) 6 .findRequest =
      some (createUser db command randomUUID) := by
  cases hemail : isText command.payload.email with
  | false => simp [alone, CreateStatement.execute, createUser, hkey, hrow, hemail]
  | true =>
      cases hsame : db.existsByEmail command.payload.email with
      | true => simp [alone, CreateStatement.execute, createUser, hkey, hrow, hemail, hsame]
      | false =>
          cases htaxId : isText command.payload.taxId with
          | false =>
              simp [alone, CreateStatement.execute, createUser, hkey, hrow, hemail, hsame,
                htaxId]
          | true =>
              cases hother : db.existsByTaxId command.payload.taxId with
              | true =>
                  simp [alone, CreateStatement.execute, createUser, hkey, hrow, hemail, hsame,
                    htaxId, hother]
              | false =>
                  have hcommit := commitCreation_alone db (newUser command randomUUID)
                    (newRequest command randomUUID)
                  simp only [newUser, newRequest] at hcommit
                  simp only [alone, CreateStatement.execute, createUser, hkey, hrow, hemail,
                    hsame, htaxId, hother, Bool.true_eq_false, Bool.false_eq_true, if_false,
                    newUser, newRequest, hcommit]
                  cases db.insertUser _ _ with
                  | none => rfl
                  | some db' => rfl

theorem createUser_alone (command : UserCreateCommandMessage) (randomUUID : UUID) :
    alone (CreateStatement.execute db command randomUUID) 6 .findRequest =
      some (createUser db command randomUUID) := by
  cases hkey : isText command.payload.idempotencyKey with
  | false => simp [alone, CreateStatement.execute, createUser, hkey]
  | true =>
      cases hrow : db.onboardingRequests.row command.payload.idempotencyKey with
      | some request =>
          by_cases hhash : request.requestHash = command.payload.requestHash
          · cases huser : db.users.row request.userId with
            | some user =>
                simp [alone, CreateStatement.execute, createUser, hkey, hrow, hhash, huser]
            | none =>
                simp [alone, CreateStatement.execute, createUser, hkey, hrow, hhash, huser]
          · simp [alone, CreateStatement.execute, createUser, hkey, hrow, hhash]
      | none => exact createUser_alone_of_new db hkey hrow

theorem commitCompensation_alone (receipt : UserCompensationReceiptEntity)
    (hregular : (db.users.row receipt.userId).any UserEntity.premium = false) :
    commitCompensation db receipt (db.users.row receipt.userId) none
        (db.onboardingRequests.rows.filter fun request =>
          request.userId = receipt.userId) =
      db.compensate receipt := by
  have hread : Read db receipt.userId (db.users.row receipt.userId) :=
    ⟨.inl rfl, fun owner howner => db.users.key_row _ owner howner, hregular⟩
  cases hcommit : commitCompensation db receipt (db.users.row receipt.userId) none
      (db.onboardingRequests.rows.filter fun request =>
        request.userId = receipt.userId) with
  | some db' =>
      exact (compensate_of_commitCompensation hcommit hread (by simp)).2.2.symm
  | none =>
      cases hcompensate : db.compensate receipt with
      | none => rfl
      | some db' =>
          obtain ⟨receipt', hremoved⟩ := compensate_some hcompensate
          rw [commitCompensation, hremoved.stored, Option.bind_some, commitRows,
            dite_eq_right_iff] at hcommit
          have hid : ∀ owner, db.users.row receipt.userId = some owner →
              owner.id = receipt.userId := db.users.key_row _
          cases hcommit ⟨rfl, UserCompensationReceiptEntity.stored_stored hremoved.stored,
            hremoved.key,
            fun owner howner => by simp [hid owner howner, Option.mem_def.mp howner],
            fun owner howner request hrequest hkept hsame => hkept (by
              simp [hrequest, hsame, hid owner howner])⟩

theorem compensateUser_alone (command : UserCompensationCommandMessage) :
    alone (CompensateStatement.execute db command) 5 .findReceipt =
      some (compensateUser db command) := by
  cases hkey : isText command.payload.idempotencyKey with
  | false => simp [alone, CompensateStatement.execute, compensateUser, hkey]
  | true =>
      cases hrow : db.userCompensationReceipts.row command.payload.idempotencyKey with
      | some receipt =>
          by_cases htarget : receipt.userId.toString = command.payload.userId
          · simp [alone, CompensateStatement.execute, compensateUser, hkey, hrow, htarget]
          · simp [alone, CompensateStatement.execute, compensateUser, hkey, hrow, htarget]
      | none =>
          cases htarget : UUID.fromString command.payload.userId with
          | none =>
              simp [alone, CompensateStatement.execute, compensateUser, hkey, hrow, htarget]
          | some userId =>
              cases hregular : (db.users.row userId).any UserEntity.premium with
              | true =>
                  simp [alone, CompensateStatement.execute, compensateUser, hkey, hrow,
                    htarget, hregular]
              | false =>
                  have hcommit :=
                    commitCompensation_alone db (newReceipt command userId) hregular
                  rw [newReceipt] at hcommit
                  simp only [alone, CompensateStatement.execute, compensateUser, hkey, hrow,
                    htarget, hregular, Bool.true_eq_false, Bool.false_eq_true, if_false,
                    newReceipt, hcommit]
                  cases db.compensate _ with
                  | none => rfl
                  | some db' => rfl

end Alone

end Modularis.Identity.Transactions
