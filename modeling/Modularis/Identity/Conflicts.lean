import Modularis.Identity.Transactions

namespace Modularis.Identity.Conflicts

open Modularis.Foundation
open Modularis.Foundation.Column
open Modularis.Shared.Uuid
open Modularis.Identity.Database
open Modularis.Identity.Service
open Modularis.Identity.Transactions

section Listener

/-- The exceptions that `handleCommand` and the method tell apart. -/
inductive Thrown where
  | applicationProblem (problem : RpcErrorPayload)
  | dataIntegrityViolation
  | other

/-- The `catch` of `createUser` around the two calls of `save`. -/
def catchViolation : Thrown → Thrown
  | .dataIntegrityViolation =>
      .applicationProblem (conflict "User identity already exists" "USER_IDENTITY_CONFLICT")
  | thrown => thrown

/-- `IdentityCommandListener.handleCommand`, from what the transaction throws. -/
def handleCommand {α : Type} : Except Thrown α → Except RpcErrorPayload α
  | .ok result => .ok result
  | .error (.applicationProblem problem) => .error problem
  | .error _ => .error userCommandFailed

/-- What a statement of `createUser` throws, or the commit that follows the method.
A deferred `save` throws nothing. -/
def attempt (db : IdentityDatabase) (command : UserCreateCommandMessage)
    (randomUUID : UUID) : CreateStatement →
    Outcome CreateStatement (Except Thrown UserCreateCommandResult)
  | .findRequest =>
      if isText command.payload.idempotencyKey = false then .ends (.error .other) db
      else
        match db.onboardingRequests.row command.payload.idempotencyKey with
        | some request =>
            if request.requestHash ≠ command.payload.requestHash then
              .ends (.error (.applicationProblem (conflict
                "Idempotency-Key was already used with a different payload"
                "IDEMPOTENCY_KEY_REUSED"))) db
            else
              match db.users.row request.userId with
              | some user => .ends (.ok { user := toPayload user, replayed := true }) db
              | none => .ends (.error .other) db
        | none => .goes .existsByEmail
  | .existsByEmail =>
      if isText command.payload.email = false then .ends (.error .other) db
      else if db.existsByEmail command.payload.email then
        .ends (.error (.applicationProblem (conflict "Email is already registered"
          "EMAIL_ALREADY_EXISTS"))) db
      else .goes .existsByTaxId
  | .existsByTaxId =>
      if isText command.payload.taxId = false then .ends (.error .other) db
      else if db.existsByTaxId command.payload.taxId then
        .ends (.error (.applicationProblem (conflict "Tax ID is already registered"
          "TAX_ID_ALREADY_EXISTS"))) db
      else .goes .saveUser
  | .saveUser => .goes (.saveRequest (db.users.row randomUUID))
  | .saveRequest userFound =>
      .goes (.commit userFound
        (db.onboardingRequests.row command.payload.idempotencyKey))
  | .commit userFound requestFound =>
      match commitCreation db (newUser command randomUUID)
          (newRequest command randomUUID) userFound requestFound with
      | some db' =>
          .ends (.ok
            { user := toPayload (newUser command randomUUID)
              replayed := false }) db'
      | none => .ends (.error .dataIntegrityViolation) db

/-- Another answer in the place of the one that a statement ends with. -/
def mapAnswer {σ α β : Type} (f : α → β) : Outcome σ α → Outcome σ β
  | .goes next => .goes next
  | .ends answer db => .ends (f answer) db

theorem execute_eq_attempt (db : IdentityDatabase) (command : UserCreateCommandMessage)
    (randomUUID : UUID) (statement : CreateStatement) :
    statement.execute db command randomUUID =
      mapAnswer handleCommand (attempt db command randomUUID statement) := by
  cases statement with
  | findRequest =>
      rw [CreateStatement.execute, attempt]
      cases isText command.payload.idempotencyKey with
      | false => rfl
      | true =>
          cases db.onboardingRequests.row command.payload.idempotencyKey with
          | none => rfl
          | some request =>
              by_cases hhash : request.requestHash ≠ command.payload.requestHash
              · simp only [if_pos hhash]
                rfl
              · simp only [if_neg hhash]
                cases db.users.row request.userId <;> rfl
  | existsByEmail =>
      rw [CreateStatement.execute, attempt]
      cases isText command.payload.email with
      | false => rfl
      | true => cases db.existsByEmail command.payload.email <;> rfl
  | existsByTaxId =>
      rw [CreateStatement.execute, attempt]
      cases isText command.payload.taxId with
      | false => rfl
      | true => cases db.existsByTaxId command.payload.taxId <;> rfl
  | saveUser => rfl
  | saveRequest userFound => rfl
  | commit userFound requestFound =>
      rw [CreateStatement.execute, attempt]
      cases commitCreation db (newUser command randomUUID) (newRequest command randomUUID)
        userFound requestFound <;> rfl

/-- A violation would be answered with 409 if a `save` threw it, inside the method; the
commit throws it outside. -/
theorem status_violation :
    (∃ problem, handleCommand (α := UserCreateCommandResult)
        (.error (catchViolation .dataIntegrityViolation)) = .error problem ∧
      problem.status = 409) ∧
    ∃ problem, handleCommand (α := UserCreateCommandResult)
        (.error .dataIntegrityViolation) = .error problem ∧ problem.status = 500 :=
  ⟨⟨_, rfl, rfl⟩, ⟨_, rfl, rfl⟩⟩

end Listener

/-- A `createUser` with its transaction and the id that it draws. -/
structure Racer where
  tx : Nat
  command : UserCreateCommandMessage
  randomUUID : UUID

namespace Racer

/-- The row that the racer is going to insert. -/
def user (x : Racer) : UserEntity := newUser x.command x.randomUUID

/-- The request that goes with it. -/
def request (x : Racer) : OnboardingRequestEntity := newRequest x.command x.randomUUID

/-- The transaction of the racer before its statement. -/
def before (x : Racer) (statement : CreateStatement) : Transaction :=
  .createUser x.command x.randomUUID statement

/-- The answer of the winner. -/
def success (x : Racer) : Answer :=
  .created x.command (.ok { user := toPayload x.user, replayed := false })

/-- The answer of a loser. -/
def failure (x : Racer) (problem : RpcErrorPayload) : Answer :=
  .created x.command (.error problem)

end Racer

/-- Each of the two could commit alone; the columns keep the same email or the same tax id
of both, and nothing else stands between them. -/
structure Rivals (db : IdentityDatabase) (x y : Racer) : Prop where
  tx : x.tx ≠ y.tx
  key : varchar 128 x.request.idempotencyKey ≠ varchar 128 y.request.idempotencyKey
  id : x.randomUUID ≠ y.randomUUID
  shared : varchar 255 x.user.email = varchar 255 y.user.email ∨
    varchar 32 x.user.taxId = varchar 32 y.user.taxId
  free : (db.insertUser x.user x.request).isSome
  free' : (db.insertUser y.user y.request).isSome

theorem Rivals.symm {db : IdentityDatabase} {x y : Racer} (h : Rivals db x y) :
    Rivals db y x where
  tx := h.tx.symm
  key := h.key.symm
  id := h.id.symm
  shared := h.shared.imp Eq.symm Eq.symm
  free := h.free'
  free' := h.free

/-- The answers of the run are the success of `x` and `problem` for `y`, and all that the
run has written is what `x` inserts. -/
structure Decided (db : IdentityDatabase) (x y : Racer) (trace : List (World × Event))
    (σ : World) (problem : RpcErrorPayload) : Prop where
  answers : trace.filterMap answered = [x.success, y.failure problem]
  db : db.insertUser x.user x.request = some σ.db

/-- One of the two commits and is answered with success, the other leaves no row and is
answered with a 409 problem. -/
def OneWins (db : IdentityDatabase) (x y : Racer) (trace : List (World × Event))
    (σ : World) : Prop :=
  ∃ problem, (Decided db x y trace σ problem ∨ Decided db y x trace σ problem) ∧
    problem.status = 409

/-- `existsByEmail` of `y` finds the row of `x`. -/
def SameEmail (x y : Racer) : Prop := varchar 255 x.user.email = some y.user.email

/-- `existsByTaxId` of `y` finds the row of `x`. -/
def SameTaxId (x y : Racer) : Prop := varchar 32 x.user.taxId = some y.user.taxId

/-- The transaction has a check ahead of it that finds the row of `x`. -/
def StillChecks (x y : Racer) : CreateStatement → Prop
  | .findRequest | .existsByEmail => SameEmail x y ∨ SameTaxId x y
  | .existsByTaxId => SameTaxId x y
  | _ => False

/-- If by this event `x` commits, `y` still has such a check ahead of it. -/
def CommitsInTime (x y : Racer) (p : World × Event) : Prop :=
  p.2 = .execute x.tx → ∀ userFound requestFound statement,
    p.1.transactions x.tx = some (x.before (.commit userFound requestFound)) →
    p.1.transactions y.tx = some (y.before statement) → StillChecks x y statement

/-- Whichever of the two commits while the other is under way, the other still has a
check ahead of it that will find it. -/
def InTime (x y : Racer) (p : World × Event) : Prop :=
  CommitsInTime x y p ∧ CommitsInTime y x p

theorem inTime_comm (x y : Racer) (p : World × Event) : InTime x y p ↔ InTime y x p :=
  and_comm

/-- The rows that `save` has looked for were not there. -/
def Clean : CreateStatement → Prop
  | .saveRequest userFound => userFound = none
  | .commit userFound requestFound => userFound = none ∧ requestFound = none
  | _ => True

section Statements

variable {db db' : IdentityDatabase} {x y : Racer}

theorem not_exists_of_free (h : (db.insertUser x.user x.request).isSome) :
    db.onboardingRequests.row x.request.idempotencyKey = none ∧
      db.users.row x.randomUUID = none ∧ db.existsByEmail x.user.email = false ∧
      db.existsByTaxId x.user.taxId = false := by
  obtain ⟨db', hdb'⟩ := Option.isSome_iff_exists.mp h
  obtain ⟨user, request, hinserted⟩ := insertUser_some hdb'
  obtain ⟨hemail, htaxId⟩ := not_exists_of_insertUser hinserted
  exact ⟨row_request_of_stored hinserted.storedRequest hinserted.key, hinserted.free_id,
    hemail, htaxId⟩

theorem isText_of_free (h : (db.insertUser x.user x.request).isSome) :
    isText x.request.idempotencyKey = true ∧ isText x.user.email = true ∧
      isText x.user.taxId = true := by
  obtain ⟨db', hdb'⟩ := Option.isSome_iff_exists.mp h
  obtain ⟨user, request, hinserted⟩ := insertUser_some hdb'
  obtain ⟨hkey, _⟩ := OnboardingRequestEntity.stored_eq_some_iff.mp hinserted.storedRequest
  obtain ⟨_, hemail, _, _, htaxId, _⟩ :=
    UserEntity.stored_eq_some_iff.mp hinserted.storedUser
  exact ⟨isText_of_varchar hkey, isText_of_varchar hemail, isText_of_varchar htaxId⟩

theorem execute_racing (hfree : (db.insertUser x.user x.request).isSome)
    {statement : CreateStatement} (hclean : Clean statement) :
    (∃ next, (x.before statement).execute db = .goes (x.before next) ∧ Clean next ∧
      ∀ userFound requestFound, statement ≠ .commit userFound requestFound) ∨
    (statement = .commit none none ∧ ∃ db', db.insertUser x.user x.request = some db' ∧
      (x.before statement).execute db = .ends x.success db') := by
  obtain ⟨hkey, hid, hemail, htaxId⟩ := not_exists_of_free hfree
  obtain ⟨hkeyText, hemailText, htaxIdText⟩ := isText_of_free hfree
  simp only [Racer.user, Racer.request, newUser, newRequest] at hkey hemail htaxId
  simp only [Racer.user, Racer.request, newUser, newRequest] at hkeyText hemailText htaxIdText
  cases statement with
  | findRequest =>
      refine .inl ⟨.existsByEmail, ?_, trivial, by simp⟩
      simp [Racer.before, Transaction.execute, CreateStatement.execute, hkeyText, hkey]
  | existsByEmail =>
      refine .inl ⟨.existsByTaxId, ?_, trivial, by simp⟩
      simp [Racer.before, Transaction.execute, CreateStatement.execute, hemailText, hemail]
  | existsByTaxId =>
      refine .inl ⟨.saveUser, ?_, trivial, by simp⟩
      simp [Racer.before, Transaction.execute, CreateStatement.execute, htaxIdText, htaxId]
  | saveUser => exact .inl ⟨.saveRequest (db.users.row x.randomUUID), rfl, hid, by simp⟩
  | saveRequest userFound =>
      exact .inl ⟨.commit userFound _, rfl, ⟨hclean, hkey⟩, by simp⟩
  | commit userFound requestFound =>
      obtain ⟨rfl, rfl⟩ := hclean
      obtain ⟨db', hdb'⟩ := Option.isSome_iff_exists.mp hfree
      have hcommit : commitCreation db (newUser x.command x.randomUUID)
          (newRequest x.command x.randomUUID) none none = some db' := hdb'
      refine .inr ⟨rfl, db', hdb', ?_⟩
      simp only [Racer.before, Transaction.execute, CreateStatement.execute, hcommit]
      rfl

theorem found_of_commit (h : Rivals db x y)
    (hdb' : db.insertUser x.user x.request = some db') :
    db'.onboardingRequests.row y.request.idempotencyKey = none ∧
      db'.users.row y.randomUUID = none ∧
      (db'.existsByEmail y.user.email = true ↔ SameEmail x y) ∧
      (db'.existsByTaxId y.user.taxId = true ↔ SameTaxId x y) := by
  obtain ⟨user, request, hinserted⟩ := insertUser_some hdb'
  obtain ⟨hkey', hid', hemail', htaxId'⟩ := not_exists_of_free h.free'
  obtain ⟨_, hemail, _, _, htaxId, _⟩ :=
    UserEntity.stored_eq_some_iff.mp hinserted.storedUser
  refine ⟨?_, ?_, ?_, ?_⟩
  · rw [Option.eq_none_iff_forall_ne_some]
    intro found hfound
    rcases hinserted.row_request_iff.mp hfound with ⟨hsame, _⟩ | hold
    · have hkey :=
        (OnboardingRequestEntity.stored_eq_some_iff.mp hinserted.storedRequest).1
      apply h.key
      rw [hsame, hkey, varchar_stored hkey]
    · rw [hkey'] at hold
      cases hold
  · rw [Option.eq_none_iff_forall_ne_some]
    intro found hfound
    rcases hinserted.row_user_iff.mp hfound with ⟨hsame, _⟩ | hold
    · exact h.id hsame.symm
    · rw [hid'] at hold
      cases hold
  · rw [IdentityDatabase.existsByEmail] at hemail' ⊢
    rw [hinserted.users, Table.rows_insertIfAbsent_of_none hinserted.id, List.any_append,
      hemail', SameEmail, hemail]
    simp
  · rw [IdentityDatabase.existsByTaxId] at htaxId' ⊢
    rw [hinserted.users, Table.rows_insertIfAbsent_of_none hinserted.id, List.any_append,
      htaxId', SameTaxId, htaxId]
    simp

theorem insertUser_none_of_commit (h : Rivals db x y)
    (hdb' : db.insertUser x.user x.request = some db') :
    db'.insertUser y.user y.request = none := by
  obtain ⟨user, request, hinserted⟩ := insertUser_some hdb'
  have hmem : user ∈ db'.users.rows :=
    Table.mem_rows_of_row (hinserted.row_user_iff.mpr (.inl ⟨rfl, rfl⟩))
  obtain ⟨_, hemail, _, _, htaxId, _⟩ :=
    UserEntity.stored_eq_some_iff.mp hinserted.storedUser
  rw [Option.eq_none_iff_forall_ne_some]
  intro db'' hdb''
  obtain ⟨user', request', hinserted'⟩ := insertUser_some hdb''
  obtain ⟨_, hemail', _, _, htaxId', _⟩ :=
    UserEntity.stored_eq_some_iff.mp hinserted'.storedUser
  rcases h.shared with hshared | hshared
  · rw [hemail, hemail'] at hshared
    exact hinserted'.email user hmem (Option.some.inj hshared)
  · rw [htaxId, htaxId'] at hshared
    exact hinserted'.taxId user hmem (Option.some.inj hshared)

/-- Once `x` has committed, the other goes on, or ends with an error, which is a 409 if
one of its checks finds `x` and a 500 if its own commit does. -/
theorem execute_lost (h : Rivals db x y)
    (hdb' : db.insertUser x.user x.request = some db') {statement : CreateStatement}
    (hclean : Clean statement) :
    (∃ next, (y.before statement).execute db' = .goes (y.before next) ∧ Clean next ∧
      (StillChecks x y next ↔ StillChecks x y statement)) ∨
    ∃ problem, (y.before statement).execute db' = .ends (y.failure problem) db' ∧
      (problem.status = 409 ↔ StillChecks x y statement) := by
  obtain ⟨hkey, hid, hemail, htaxId⟩ := found_of_commit h hdb'
  obtain ⟨hkeyText, hemailText, htaxIdText⟩ := isText_of_free h.free'
  simp only [Racer.request, newRequest] at hkey
  simp only [Racer.user, Racer.request, newUser, newRequest] at hkeyText hemailText htaxIdText
  cases statement with
  | findRequest =>
      refine .inl ⟨.existsByEmail, ?_, trivial, Iff.rfl⟩
      simp [Racer.before, Transaction.execute, CreateStatement.execute, hkeyText, hkey]
  | existsByEmail =>
      by_cases hsame : SameEmail x y
      · have hfound : db'.existsByEmail y.command.payload.email = true :=
          hemail.mpr hsame
        refine .inr ⟨conflict "Email is already registered" "EMAIL_ALREADY_EXISTS", ?_,
          iff_of_true rfl (.inl hsame)⟩
        simp only [Racer.before, Transaction.execute, CreateStatement.execute, hemailText,
          hfound]
        rfl
      · have hfound : ¬ db'.existsByEmail y.command.payload.email = true :=
          mt hemail.mp hsame
        refine .inl ⟨.existsByTaxId, ?_, trivial, (or_iff_right hsame).symm⟩
        simp only [Racer.before, Transaction.execute, CreateStatement.execute, hemailText,
          Bool.true_eq_false, if_false, if_neg hfound]
  | existsByTaxId =>
      by_cases hsame : SameTaxId x y
      · have hfound : db'.existsByTaxId y.command.payload.taxId = true :=
          htaxId.mpr hsame
        refine .inr ⟨conflict "Tax ID is already registered" "TAX_ID_ALREADY_EXISTS", ?_,
          iff_of_true rfl hsame⟩
        simp only [Racer.before, Transaction.execute, CreateStatement.execute, htaxIdText,
          hfound]
        rfl
      · have hfound : ¬ db'.existsByTaxId y.command.payload.taxId = true :=
          mt htaxId.mp hsame
        refine .inl ⟨.saveUser, ?_, trivial, iff_of_false id hsame⟩
        simp only [Racer.before, Transaction.execute, CreateStatement.execute, htaxIdText,
          Bool.true_eq_false, if_false, if_neg hfound]
  | saveUser => exact .inl ⟨.saveRequest _, rfl, hid, Iff.rfl⟩
  | saveRequest userFound => exact .inl ⟨.commit userFound _, rfl, ⟨hclean, hkey⟩, Iff.rfl⟩
  | commit userFound requestFound =>
      obtain ⟨rfl, rfl⟩ := hclean
      have hcommit : commitCreation db' (newUser y.command y.randomUUID)
          (newRequest y.command y.randomUUID) none none = none :=
        insertUser_none_of_commit h hdb'
      refine .inr ⟨userCommandFailed, ?_, iff_of_false (by decide) id⟩
      simp only [Racer.before, Transaction.execute, CreateStatement.execute, hcommit]
      rfl

end Statements

section Race

variable {db : IdentityDatabase} {x y : Racer} {trace : List (World × Event)}
  {σ σ' : World}

/-- Nobody has committed. -/
structure Racing (db : IdentityDatabase) (x y : Racer) (trace : List (World × Event))
    (σ : World) : Prop where
  db : σ.db = db
  running : ∃ statement, σ.transactions x.tx = some (x.before statement) ∧ Clean statement
  running' : ∃ statement, σ.transactions y.tx = some (y.before statement) ∧
    Clean statement
  answers : trace.filterMap answered = []
  inTime : ∀ p ∈ trace, InTime x y p

theorem Racing.symm (h : Racing db x y trace σ) : Racing db y x trace σ where
  db := h.db
  running := h.running'
  running' := h.running
  answers := h.answers
  inTime := fun p hp => (inTime_comm y x p).mpr (h.inTime p hp)

/-- `x` has committed, and `y` is under way. -/
structure Won (db : IdentityDatabase) (x y : Racer) (trace : List (World × Event))
    (σ : World) : Prop where
  db : db.insertUser x.user x.request = some σ.db
  ended : σ.transactions x.tx = none
  running : ∃ statement, σ.transactions y.tx = some (y.before statement) ∧
    Clean statement ∧ (StillChecks x y statement ↔ ∀ p ∈ trace, InTime x y p)
  answers : trace.filterMap answered = [x.success]

/-- Both have ended, `y` with an error. -/
structure Lost (db : IdentityDatabase) (x y : Racer) (trace : List (World × Event))
    (σ : World) : Prop where
  ended : σ.transactions x.tx = none
  ended' : σ.transactions y.tx = none
  decided : ∃ problem, Decided db x y trace σ problem ∧
    (problem.status = 409 ↔ ∀ p ∈ trace, InTime x y p)

/-- How far the race has come. -/
def Standing (db : IdentityDatabase) (x y : Racer) (trace : List (World × Event))
    (σ : World) : Prop :=
  Racing db x y trace σ ∨ (Won db x y trace σ ∨ Lost db x y trace σ) ∨
    (Won db y x trace σ ∨ Lost db y x trace σ)

theorem Standing.symm (h : Standing db x y trace σ) : Standing db y x trace σ :=
  h.imp Racing.symm Or.symm

theorem step_execute_of_goes {tx : Nat} {transaction next : Transaction}
    (htx : σ.transactions tx = some transaction)
    (hexecute : transaction.execute σ.db = .goes next)
    (hstep : step σ (.execute tx) = some σ') :
    σ' = σ.set tx (some next) ∧ answered (σ, .execute tx) = none := by
  constructor
  · simp only [step, htx, hexecute] at hstep
    exact (Option.some.inj hstep).symm
  · simp [answered, htx, hexecute]

theorem step_execute_of_ends {tx : Nat} {transaction : Transaction} {answer : Answer}
    {db' : IdentityDatabase} (htx : σ.transactions tx = some transaction)
    (hexecute : transaction.execute σ.db = .ends answer db')
    (hstep : step σ (.execute tx) = some σ') :
    σ'.db = db' ∧ σ'.transactions = (σ.set tx none).transactions ∧
      answered (σ, .execute tx) = some answer := by
  refine ⟨?_, ?_, by simp [answered, htx, hexecute]⟩
  all_goals
    simp only [step, htx, hexecute] at hstep
    obtain rfl := Option.some.inj hstep
    rfl

theorem before_inj {statement statement' : CreateStatement}
    (h : some (x.before statement) = some (x.before statement')) :
    statement = statement' :=
  (Transaction.createUser.inj (Option.some.inj h)).2.2

/-- A turn of `x` is in time if `x` does not commit by it or the other still checks. -/
theorem inTime_left_iff (htx : x.tx ≠ y.tx) {statement other : CreateStatement}
    (hx : σ.transactions x.tx = some (x.before statement))
    (hy : σ.transactions y.tx = some (y.before other)) :
    InTime x y (σ, .execute x.tx) ↔
      ∀ userFound requestFound, statement = .commit userFound requestFound →
        StillChecks x y other := by
  constructor
  · rintro ⟨hcommits, _⟩ userFound requestFound rfl
    exact hcommits rfl userFound requestFound other hx hy
  · intro h
    refine ⟨fun _ userFound requestFound later hx' hy' => ?_, fun hexecute => ?_⟩
    · obtain rfl := before_inj (hy.symm.trans hy')
      exact h userFound requestFound (before_inj (hx.symm.trans hx'))
    · exact absurd (Event.execute.inj hexecute) htx

theorem inTime_right (htx : x.tx ≠ y.tx) (hended : σ.transactions x.tx = none) :
    InTime x y (σ, .execute y.tx) := by
  refine ⟨fun hexecute => absurd (Event.execute.inj hexecute).symm htx, ?_⟩
  intro _ userFound requestFound statement _ hx
  rw [hended] at hx
  cases hx

theorem Racing.step_left (hrivals : Rivals db x y) (h : Racing db x y trace σ)
    (hstep : step σ (.execute x.tx) = some σ') :
    Racing db x y (trace ++ [(σ, .execute x.tx)]) σ' ∨
      Won db x y (trace ++ [(σ, .execute x.tx)]) σ' := by
  obtain ⟨statement, htx, hclean⟩ := h.running
  obtain ⟨other, hother, hclean'⟩ := h.running'
  have hinTime := inTime_left_iff hrivals.tx htx hother
  have hexecute := execute_racing hrivals.free hclean
  rw [← h.db] at hexecute
  rcases hexecute with ⟨next, hexecute, hnext, hnot⟩ | ⟨rfl, db', hdb', hexecute⟩
  · obtain ⟨rfl, hanswered⟩ := step_execute_of_goes htx hexecute hstep
    refine .inl ⟨h.db, ⟨next, World.transactions_set_self .., hnext⟩, ⟨other, ?_, hclean'⟩,
      ?_, ?_⟩
    · rw [World.transactions_set_of_ne _ hrivals.tx.symm, hother]
    · rw [List.filterMap_append, h.answers, List.nil_append]
      simp [hanswered]
    · simp only [List.forall_mem_append, List.forall_mem_singleton]
      exact ⟨h.inTime, hinTime.mpr fun userFound requestFound hcommit =>
        absurd hcommit (hnot userFound requestFound)⟩
  · obtain ⟨hdb, htransactions, hanswered⟩ := step_execute_of_ends htx hexecute hstep
    refine .inr ⟨?_, ?_, ⟨other, ?_, hclean', ?_⟩, ?_⟩
    · rw [hdb, ← h.db, hdb']
    · rw [htransactions, World.transactions_set_self]
    · rw [htransactions, World.transactions_set_of_ne _ hrivals.tx.symm, hother]
    · simp only [List.forall_mem_append, List.forall_mem_singleton]
      rw [hinTime]
      constructor
      · exact fun hchecks => ⟨h.inTime, fun _ _ _ => hchecks⟩
      · exact fun hall => hall.2 none none rfl
    · rw [List.filterMap_append, h.answers, List.nil_append]
      simp [hanswered]

theorem Won.step_right (hrivals : Rivals db x y) (h : Won db x y trace σ)
    (hstep : step σ (.execute y.tx) = some σ') :
    Won db x y (trace ++ [(σ, .execute y.tx)]) σ' ∨
      Lost db x y (trace ++ [(σ, .execute y.tx)]) σ' := by
  obtain ⟨statement, htx, hclean, hchecks⟩ := h.running
  have hinTime : (∀ p ∈ trace ++ [(σ, .execute y.tx)], InTime x y p) ↔
      ∀ p ∈ trace, InTime x y p := by
    simp only [List.forall_mem_append, List.forall_mem_singleton]
    exact and_iff_left (inTime_right hrivals.tx h.ended)
  rcases execute_lost hrivals h.db hclean with ⟨next, hexecute, hnext, hstill⟩ |
    ⟨problem, hexecute, hstatus⟩
  · obtain ⟨rfl, hanswered⟩ := step_execute_of_goes htx hexecute hstep
    refine .inl ⟨h.db, ?_, ⟨next, World.transactions_set_self .., hnext, ?_⟩, ?_⟩
    · rw [World.transactions_set_of_ne _ hrivals.tx, h.ended]
    · rw [hinTime, hstill, hchecks]
    · rw [List.filterMap_append, h.answers]
      simp [hanswered]
  · obtain ⟨hdb, htransactions, hanswered⟩ := step_execute_of_ends htx hexecute hstep
    refine .inr ⟨?_, ?_, problem, ⟨?_, hdb ▸ h.db⟩, ?_⟩
    · rw [htransactions, World.transactions_set_of_ne _ hrivals.tx, h.ended]
    · rw [htransactions, World.transactions_set_self]
    · rw [List.filterMap_append, h.answers]
      simp [hanswered]
    · rw [hinTime, hstatus, hchecks]

theorem step_of_none {tx : Nat} (h : σ.transactions tx = none) :
    step σ (.execute tx) = none := by
  simp [step, h]

theorem Standing.step_left (hrivals : Rivals db x y) (h : Standing db x y trace σ)
    (hstep : step σ (.execute x.tx) = some σ') :
    Standing db x y (trace ++ [(σ, .execute x.tx)]) σ' := by
  rcases h with h | (h | h) | (h | h)
  · exact (h.step_left hrivals hstep).imp id fun h => .inl (.inl h)
  · rw [step_of_none h.ended] at hstep
    cases hstep
  · rw [step_of_none h.ended] at hstep
    cases hstep
  · exact .inr (.inr (h.step_right hrivals.symm hstep))
  · rw [step_of_none h.ended'] at hstep
    cases hstep

theorem standing_of_run (hrivals : Rivals db x y) {σ₀ : World} (hdb : σ₀.db = db)
    (hx : σ₀.transactions x.tx = some (x.before .findRequest))
    (hy : σ₀.transactions y.tx = some (y.before .findRequest))
    (hrun : StepSystem.Run step σ₀ trace σ)
    (honly : ∀ p ∈ trace, p.2 = .execute x.tx ∨ p.2 = .execute y.tx) :
    Standing db x y trace σ := by
  induction hrun with
  | nil =>
      exact .inl ⟨hdb, ⟨_, hx, trivial⟩, ⟨_, hy, trivial⟩, rfl, fun p hp => nomatch hp⟩
  | snoc _ hstep ih =>
      simp only [List.forall_mem_append, List.forall_mem_singleton] at honly
      have hbefore := ih honly.1
      rcases honly.2 with rfl | rfl
      · exact hbefore.step_left hrivals hstep
      · exact (hbefore.symm.step_left hrivals.symm hstep).symm

end Race

theorem Decided.unique {db : IdentityDatabase} {x y : Racer} (hrivals : Rivals db x y)
    {trace : List (World × Event)} {σ : World} {problem problem' : RpcErrorPayload}
    (h : Decided db x y trace σ problem)
    (h' : Decided db x y trace σ problem' ∨ Decided db y x trace σ problem') :
    problem' = problem := by
  rcases h' with h' | h'
  · have hanswers := h'.answers.symm.trans h.answers
    simp only [List.cons.injEq, and_true, true_and] at hanswers
    exact Except.error.inj (Answer.created.inj hanswers).2
  · have hanswers := h'.answers.symm.trans h.answers
    have hcommand := (Answer.created.inj (List.cons.inj hanswers).1).1
    exact absurd
      (congrArg (fun command => varchar 128 command.payload.idempotencyKey) hcommand)
      hrivals.key.symm

/-- Of two rivals one commits and is answered with success, and the other leaves no row,
however their statements interleave; the other is answered with a 409 exactly if the
one commits while the other still has a check ahead of it that finds it. -/
theorem one_wins_iff {db : IdentityDatabase} {x y : Racer} (hrivals : Rivals db x y)
    {σ₀ σ : World} {trace : List (World × Event)} (hdb : σ₀.db = db)
    (hx : σ₀.transactions x.tx = some (x.before .findRequest))
    (hy : σ₀.transactions y.tx = some (y.before .findRequest))
    (hrun : StepSystem.Run step σ₀ trace σ)
    (honly : ∀ p ∈ trace, p.2 = .execute x.tx ∨ p.2 = .execute y.tx)
    (hxend : σ.transactions x.tx = none) (hyend : σ.transactions y.tx = none) :
    (∃ problem, Decided db x y trace σ problem ∨ Decided db y x trace σ problem) ∧
    (OneWins db x y trace σ ↔ ∀ p ∈ trace, InTime x y p) := by
  have hlost : Lost db x y trace σ ∨ Lost db y x trace σ := by
    rcases standing_of_run hrivals hdb hx hy hrun honly with h | (h | h) | (h | h)
    · obtain ⟨statement, hrunning, _⟩ := h.running
      rw [hxend] at hrunning
      cases hrunning
    · obtain ⟨statement, hrunning, _⟩ := h.running
      rw [hyend] at hrunning
      cases hrunning
    · exact .inl h
    · obtain ⟨statement, hrunning, _⟩ := h.running
      rw [hxend] at hrunning
      cases hrunning
    · exact .inr h
  rcases hlost with hlost | hlost
  · obtain ⟨problem, hdecided, hstatus⟩ := hlost.decided
    refine ⟨⟨problem, .inl hdecided⟩, ?_, fun h => ⟨problem, .inl hdecided, hstatus.mpr h⟩⟩
    rintro ⟨problem', hdecided', hconflict⟩
    exact hstatus.mp (hdecided.unique hrivals hdecided' ▸ hconflict)
  · obtain ⟨problem, hdecided, hstatus⟩ := hlost.decided
    simp only [inTime_comm y x] at hstatus
    refine ⟨⟨problem, .inr hdecided⟩, ?_, fun h => ⟨problem, .inr hdecided, hstatus.mpr h⟩⟩
    rintro ⟨problem', hdecided', hconflict⟩
    exact hstatus.mp (hdecided.unique hrivals.symm hdecided'.symm ▸ hconflict)

section Sample

def sampleRacer (tx : Nat) (key email : String) (d : Fin 16) : Racer where
  tx := tx
  command :=
    { correlationId := "c-1"
      payload :=
        { idempotencyKey := key
          requestHash := "hash-1"
          email := email
          name := "Ada"
          cellphone := "11999990000"
          taxId := "12345678901" } }
  randomUUID := .ofDigit d

def sampleAda : Racer := sampleRacer 0 "key-1" "ada@modularis.dev" ⟨1, by decide⟩

def sampleGrace : Racer := sampleRacer 1 "key-2" "grace@modularis.dev" ⟨2, by decide⟩

/-- Another user has registered before. -/
def sampleDatabase : IdentityDatabase :=
  (createUser IdentityDatabase.empty
    { correlationId := "c-0"
      payload :=
        { idempotencyKey := "key-0"
          requestHash := "hash-0"
          email := "alan@modularis.dev"
          name := "Alan"
          cellphone := "11999990001"
          taxId := "98765432100" } }
    (.ofDigit (Fin.last 15))).2

/-- The two have begun their transactions. -/
def started (x y : Racer) : World where
  db := sampleDatabase
  transactions := fun tx =>
    if tx = x.tx then some (x.before .findRequest)
    else if tx = y.tx then some (y.before .findRequest)
    else none
  used := [x.randomUUID, y.randomUUID]
  secret := [x.randomUUID, y.randomUUID]

theorem rivals_sample : Rivals sampleDatabase sampleAda sampleGrace where
  tx := by decide
  key := by decide
  id := by decide
  shared := .inr rfl
  free := by decide
  free' := by decide

/-- The second has checked its email when the first commits, but not its tax id. -/
def oneInTime : List Event :=
  List.replicate 3 (.execute 0) ++ List.replicate 2 (.execute 1) ++
    List.replicate 3 (.execute 0) ++ [.execute 1]

/-- Both racers have looked before either has inserted. -/
def bothChecked : List Event :=
  List.replicate 5 (.execute 0) ++ List.replicate 6 (.execute 1) ++ [.execute 0]

theorem one_wins_iff_sample :
    ∃ trace σ, StepSystem.Run step (started sampleAda sampleGrace) trace σ ∧
      OneWins sampleDatabase sampleAda sampleGrace trace σ ∧
      ∀ p ∈ trace, InTime sampleAda sampleGrace p := by
  obtain ⟨σ, hσ⟩ : ∃ σ, StepSystem.replay step (started sampleAda sampleGrace) oneInTime =
      some σ := ⟨_, rfl⟩
  have hends : ∀ tx < 2, (StepSystem.replay step (started sampleAda sampleGrace)
      oneInTime).map (fun σ => (σ.transactions tx).isNone) = some true := by decide
  have hdb : (StepSystem.replay step (started sampleAda sampleGrace) oneInTime).map
      World.db = sampleDatabase.insertUser sampleAda.user sampleAda.request := rfl
  rw [hσ] at hends hdb
  have hended : ∀ tx < 2, σ.transactions tx = none := fun tx htx =>
    Option.isNone_iff_eq_none.mp (Option.some.inj (hends tx htx))
  have hanswers : (StepSystem.traceOf step (started sampleAda sampleGrace)
      oneInTime).filterMap answered = [sampleAda.success, sampleGrace.failure
        (conflict "Tax ID is already registered" "TAX_ID_ALREADY_EXISTS")] := rfl
  have hrun := StepSystem.run_of_replay hσ
  have hwins : OneWins sampleDatabase sampleAda sampleGrace _ σ :=
    ⟨_, .inl ⟨hanswers, hdb.symm⟩, rfl⟩
  refine ⟨_, σ, hrun, hwins, (one_wins_iff rivals_sample rfl rfl rfl hrun ?_
    (hended 0 (by decide)) (hended 1 (by decide))).2.mp hwins⟩
  intro p hp
  have hevent := StepSystem.event_mem_of_mem_traceOf hp
  simp only [oneInTime, List.mem_append, List.mem_replicate, List.mem_singleton] at hevent
  rcases hevent with ((⟨_, h⟩ | ⟨_, h⟩) | ⟨_, h⟩) | h
  · exact .inl h
  · exact .inr h
  · exact .inl h
  · exact .inr h

/-- Both have run their checks when the first of them commits: the second is answered
with a 500. -/
theorem loser_answered_500 :
    ∃ trace σ, StepSystem.Run step (started sampleAda sampleGrace) trace σ ∧
      (∀ p ∈ trace, p.2 = .execute 0 ∨ p.2 = .execute 1) ∧
      σ.transactions 0 = none ∧ σ.transactions 1 = none ∧
      ¬ OneWins sampleDatabase sampleAda sampleGrace trace σ := by
  obtain ⟨σ, hσ⟩ : ∃ σ, StepSystem.replay step (started sampleAda sampleGrace) bothChecked =
      some σ := ⟨_, rfl⟩
  have hends : ∀ tx < 2, (StepSystem.replay step (started sampleAda sampleGrace)
      bothChecked).map (fun σ => (σ.transactions tx).isNone) = some true := by decide
  rw [hσ] at hends
  have hended : ∀ tx < 2, σ.transactions tx = none := fun tx htx =>
    Option.isNone_iff_eq_none.mp (Option.some.inj (hends tx htx))
  have hanswers : (StepSystem.traceOf step (started sampleAda sampleGrace)
      bothChecked).filterMap answered =
      [sampleGrace.success, sampleAda.failure userCommandFailed] := rfl
  refine ⟨_, σ, StepSystem.run_of_replay hσ, ?_, hended 0 (by decide),
    hended 1 (by decide), ?_⟩
  · intro p hp
    have hevent := StepSystem.event_mem_of_mem_traceOf hp
    simp only [bothChecked, List.mem_append, List.mem_replicate,
      List.mem_singleton] at hevent
    rcases hevent with (⟨_, h⟩ | ⟨_, h⟩) | h
    · exact .inl h
    · exact .inr h
    · exact .inl h
  · rintro ⟨problem, hdecided | hdecided, hconflict⟩
    · have hsame := (List.cons.inj (hdecided.answers.symm.trans hanswers)).1
      have hcommand := congrArg (fun command => command.payload.idempotencyKey)
        (Answer.created.inj hsame).1
      exact absurd hcommand (by decide)
    · have hsame := (List.cons.inj (List.cons.inj
        (hdecided.answers.symm.trans hanswers)).2).1
      obtain rfl := Except.error.inj (Answer.created.inj hsame).2
      exact absurd hconflict (by decide)

end Sample

end Modularis.Identity.Conflicts
