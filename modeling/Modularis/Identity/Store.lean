import Modularis.Identity.Transactions

namespace Modularis.Identity.Store

open Modularis.Foundation
open Modularis.Shared.Uuid
open Modularis.Identity.Database
open Modularis.Identity.Service
open Modularis.Identity.Transactions

section Linked

variable {db db' : IdentityDatabase}

/-- Every user has a request, and no two requests share their user. -/
structure Linked (db : IdentityDatabase) : Prop where
  owned : ∀ user ∈ db.users.rows, ∃ request ∈ db.onboardingRequests.rows,
    request.userId = user.id
  single : ∀ a ∈ db.onboardingRequests.rows, ∀ b ∈ db.onboardingRequests.rows,
    a.userId = b.userId → a = b

theorem linked_empty : Linked IdentityDatabase.empty where
  owned := by
    intro user huser
    cases huser
  single := by
    intro a ha
    cases ha

theorem user_of_request {request : OnboardingRequestEntity}
    (h : request ∈ db.onboardingRequests.rows) :
    ∃ user ∈ db.users.rows, user.id = request.userId := by
  rw [Table.mem_rows_iff] at h
  obtain ⟨user, huser⟩ := Option.isSome_iff_exists.mp (db.references _ request h)
  exact ⟨user, Table.mem_rows_of_row huser, db.users.key_row _ user huser⟩

theorem linked_insertUser {user : UserEntity} {request : OnboardingRequestEntity}
    (h : db.insertUser user request = some db') (hlinked : Linked db) : Linked db' := by
  obtain ⟨user', request', hinserted⟩ := insertUser_some h
  constructor
  · rw [hinserted.users, hinserted.requests]
    intro other hother
    rcases (Table.mem_rows_insertIfAbsent_iff hinserted.id).mp hother with rfl | hold
    · exact ⟨request', (Table.mem_rows_insertIfAbsent_iff hinserted.key).mpr (.inl rfl),
        hinserted.reference⟩
    · obtain ⟨owned, howned, hsame⟩ := hlinked.owned other hold
      exact ⟨owned, (Table.mem_rows_insertIfAbsent_iff hinserted.key).mpr (.inr howned), hsame⟩
  · rw [hinserted.requests]
    refine Table.unique_insertIfAbsent OnboardingRequestEntity.userId hinserted.key ?_
      hlinked.single
    intro other hother hsame
    obtain ⟨owner, howner, howned⟩ := user_of_request hother
    rw [Table.mem_rows_iff, howned, hsame, hinserted.reference, hinserted.id] at howner
    cases howner

theorem linked_compensate {receipt : UserCompensationReceiptEntity}
    (h : db.compensate receipt = some db') (hlinked : Linked db) : Linked db' := by
  obtain ⟨_, hremoved⟩ := compensate_some h
  constructor
  · rw [hremoved.users, hremoved.requests]
    intro user huser
    obtain ⟨hold, hkept⟩ := Table.mem_rows_restrict_iff.mp huser
    obtain ⟨request, hrequest, hsame⟩ := hlinked.owned user hold
    refine ⟨request, Table.mem_rows_restrict_iff.mpr ⟨hrequest, ?_⟩, hsame⟩
    rw [hsame]
    exact hkept
  · rw [hremoved.requests]
    intro a ha b hb
    exact hlinked.single a (Table.mem_rows_restrict_iff.mp ha).1 b
      (Table.mem_rows_restrict_iff.mp hb).1

theorem createUser_changes {command : UserCreateCommandMessage} {randomUUID : UUID}
    {result : UserCreateCommandResult}
    (h : createUser db command randomUUID = (.ok result, db')) :
    (Linked db → Linked db') ∧
      (∀ id, id ≠ randomUUID → db'.users.row id = db.users.row id) ∧
      db'.userCompensationReceipts = db.userCompensationReceipts := by
  rcases createUser_ok db h with ⟨_, _, _, _, _, _, rfl⟩ | ⟨_, hinsert, _⟩
  · exact ⟨fun hlinked => hlinked, fun _ _ => rfl, rfl⟩
  · obtain ⟨_, _, hinserted⟩ := insertUser_some hinsert
    refine ⟨linked_insertUser hinsert, ?_, hinserted.receipts⟩
    intro id hne
    rw [hinserted.users, Table.row_insertIfAbsent_of_none hinserted.id, hinserted.user_id]
    exact if_neg hne

theorem compensateUser_changes {command : UserCompensationCommandMessage}
    {result : CompensationCommandResult}
    (h : compensateUser db command = (.ok result, db')) :
    (Linked db → Linked db') ∧
      (∀ id, db'.users.row id = db.users.row id ∨ db'.users.row id = none) ∧
      ∀ key receipt, db'.userCompensationReceipts.row key = some receipt →
        db.userCompensationReceipts.row key = some receipt ∨
          UUID.fromString command.payload.userId = some receipt.userId ∧
            db'.users.row receipt.userId = none := by
  rcases (compensateUser_ok db h).2 with ⟨_, _, _, rfl⟩ | ⟨userId, hcompensates, hdb⟩
  · exact ⟨fun hlinked => hlinked, fun _ => .inl rfl, fun _ _ hrow => .inl hrow⟩
  · refine ⟨linked_compensate hdb, ?_, ?_⟩
    · intro id
      rw [row_users_compensate hdb]
      split
      · exact .inr rfl
      · exact .inl rfl
    · intro key receipt hrow
      obtain ⟨receipt', hremoved⟩ := compensate_some hdb
      rw [hremoved.receipts] at hrow
      rcases Table.row_of_insertIfAbsent hrow with rfl | hold
      · rw [hremoved.userId]
        refine .inr ⟨hcompensates.target, ?_⟩
        rw [row_users_compensate hdb]
        exact if_pos rfl
      · exact .inl hold

end Linked

section Worlds

variable {world next : World}

/-- The id was drawn or named, and no open creation has drawn it. -/
def Known (world : World) (id : UUID) : Prop :=
  id ∈ world.used ∧ id ∉ world.secret

/-- There is no such user, and there will be none. -/
def Gone (world : World) (id : UUID) : Prop :=
  Known world id ∧ world.db.users.row id = none

/-- The id that a transaction has drawn. -/
def drawn : Transaction → Option UUID
  | .createUser _ randomUUID _ => some randomUUID
  | .compensateUser _ _ => none

/-- What a transaction has read still holds. -/
def Holds (world : World) : Transaction → Prop
  | .createUser _ randomUUID _ => randomUUID ∈ world.secret
  | .compensateUser command statement =>
      (∀ userId, UUID.fromString command.payload.userId = some userId →
        Known world userId) ∧
      statement.Reads world.db command

/-- Users and requests belong together, ids are drawn once, and no stored user is one that a
receipt names. -/
structure Consistent (world : World) : Prop where
  linked : Linked world.db
  secret : ∀ id ∈ world.secret, id ∈ world.used ∧ world.db.users.row id = none
  users : ∀ id, (world.db.users.row id).isSome → id ∈ world.used
  receipts : ∀ key receipt, world.db.userCompensationReceipts.row key = some receipt →
    Gone world receipt.userId
  transactions : ∀ tx transaction, world.transactions tx = some transaction →
    Holds world transaction
  distinct : ∀ tx transaction, world.transactions tx = some transaction →
    ∀ tx' transaction', world.transactions tx' = some transaction' → tx' ≠ tx →
      ∀ id, drawn transaction = some id → drawn transaction' ≠ some id

theorem consistent_init : Consistent World.init where
  linked := linked_empty
  secret := by simp [World.init]
  users := by simp [World.init, IdentityDatabase.empty]
  receipts := by simp [World.init, IdentityDatabase.empty]
  transactions := by simp [World.init]
  distinct := by simp [World.init]

/-- Known ids stay known, and their users are at most deleted. -/
structure Later (world next : World) : Prop where
  known : ∀ id, Known world id → Known next id
  users : ∀ id, Known world id →
    next.db.users.row id = world.db.users.row id ∨ next.db.users.row id = none

theorem Gone.later {id : UUID} (h : Gone world id) (hlater : Later world next) :
    Gone next id := by
  refine ⟨hlater.known id h.1, ?_⟩
  rcases hlater.users id h.1 with hsame | hgone
  · exact hsame.trans h.2
  · exact hgone

theorem Read.later {userId : UUID} {user : Option UserEntity}
    (h : Read world.db userId user) (hlater : Later world next)
    (hknown : Known world userId) : Read next.db userId user where
  row := by
    rcases hlater.users userId hknown with hsame | hgone
    · rw [hsame]
      exact h.row
    · exact .inr hgone
  id := h.id
  regular := h.regular

theorem Holds.later_compensateUser {command : UserCompensationCommandMessage}
    {statement : CompensateStatement}
    (h : Holds world (.compensateUser command statement)) (hlater : Later world next) :
    Holds next (.compensateUser command statement) := by
  obtain ⟨hknown, hreads⟩ := h
  refine ⟨fun userId htarget => hlater.known userId (hknown userId htarget), ?_⟩
  cases statement with
  | findReceipt => exact trivial
  | findUser userId => exact hreads
  | saveReceipt userId user =>
      exact ⟨hreads.1, Read.later hreads.2 hlater (hknown userId hreads.1)⟩
  | deleteByUserId userId user receiptFound =>
      exact ⟨hreads.1, Read.later hreads.2 hlater (hknown userId hreads.1)⟩
  | commit userId user receiptFound deleted =>
      exact ⟨hreads.1, Read.later hreads.2.1 hlater (hknown userId hreads.1), hreads.2.2⟩

theorem Holds.later {transaction : Transaction} (h : Holds world transaction)
    (hlater : Later world next)
    (hdrawn : ∀ id, drawn transaction = some id → id ∈ next.secret) :
    Holds next transaction := by
  cases transaction with
  | createUser command randomUUID statement => exact hdrawn randomUUID rfl
  | compensateUser command statement => exact h.later_compensateUser hlater

theorem Consistent.secret_of_drawn (h : Consistent world) {tx : Nat}
    {transaction : Transaction} (htx : world.transactions tx = some transaction) {id : UUID}
    (hid : drawn transaction = some id) : id ∈ world.secret := by
  have hholds := h.transactions tx transaction htx
  cases transaction with
  | createUser command randomUUID statement =>
      obtain rfl := Option.some.inj hid
      exact hholds
  | compensateUser command statement => cases hid

theorem Consistent.moves (h : Consistent world) (hlater : Later world next) (tx : Nat)
    (hlinked : Linked next.db)
    (hsecret : ∀ id ∈ next.secret, id ∈ next.used ∧ next.db.users.row id = none)
    (husers : ∀ id, (next.db.users.row id).isSome → id ∈ next.used)
    (hreceipts : ∀ key receipt,
      next.db.userCompensationReceipts.row key = some receipt →
        world.db.userCompensationReceipts.row key = some receipt ∨
          Gone next receipt.userId)
    (hothers : ∀ tx', tx' ≠ tx → next.transactions tx' = world.transactions tx')
    (hdrawn : ∀ tx' transaction id, tx' ≠ tx →
      world.transactions tx' = some transaction → drawn transaction = some id →
        id ∈ next.secret ∧
          ∀ moved, next.transactions tx = some moved → drawn moved ≠ some id)
    (hself : ∀ moved, next.transactions tx = some moved → Holds next moved) :
    Consistent next where
  linked := hlinked
  secret := hsecret
  users := husers
  receipts := by
    intro key receipt hrow
    rcases hreceipts key receipt hrow with hold | hgone
    · exact (h.receipts key receipt hold).later hlater
    · exact hgone
  transactions := by
    intro tx' transaction htx'
    by_cases hsame : tx' = tx
    · rw [hsame] at htx'
      exact hself transaction htx'
    · rw [hothers tx' hsame] at htx'
      exact (h.transactions tx' transaction htx').later hlater
        fun id hid => (hdrawn tx' transaction id hsame htx' hid).1
  distinct := by
    intro tx₁ first hfirst tx₂ second hsecond hne id hid hid'
    by_cases hone : tx₁ = tx
    · rw [hone] at hfirst hne
      rw [hothers tx₂ hne] at hsecond
      exact (hdrawn tx₂ second id hne hsecond hid').2 first hfirst hid
    · rw [hothers tx₁ hone] at hfirst
      by_cases htwo : tx₂ = tx
      · rw [htwo] at hsecond
        exact (hdrawn tx₁ first id hone hfirst hid).2 second hsecond hid'
      · rw [hothers tx₂ htwo] at hsecond
        exact h.distinct tx₁ first hfirst tx₂ second hsecond hne id hid hid'

end Worlds

section Steps

variable {world next : World} {tx : Nat} {transaction : Transaction} {answer : Answer}
  {db' : IdentityDatabase}

theorem holds_of_goes {moved : Transaction} (h : Holds world transaction)
    (hgoes : transaction.execute world.db = .goes moved) :
    drawn moved = drawn transaction ∧ Holds world moved := by
  cases transaction with
  | createUser command randomUUID statement =>
      simp only [Transaction.execute] at hgoes
      split at hgoes
      · cases hgoes
        exact ⟨rfl, h⟩
      · cases hgoes
  | compensateUser command statement =>
      simp only [Transaction.execute] at hgoes
      split at hgoes
      · rename_i hstatement
        cases hgoes
        exact ⟨rfl, h.1, reads_of_goes h.2 hstatement⟩
      · cases hgoes

theorem ends_cases (h : Holds world transaction)
    (hends : transaction.execute world.db = .ends answer db') :
    (db' = world.db ∧ ∀ command result, answer ≠ .compensated command (.ok result)) ∨
    (∃ command randomUUID result, drawn transaction = some randomUUID ∧
      answer = .created command (.ok result) ∧
      createUser world.db command randomUUID = (.ok result, db')) ∨
    ∃ command result, answer = .compensated command (.ok result) ∧
      (∀ userId, UUID.fromString command.payload.userId = some userId →
        Known world userId) ∧
      compensateUser world.db command = (.ok result, db') := by
  cases transaction with
  | createUser command randomUUID statement =>
      simp only [Transaction.execute] at hends
      split at hends
      · cases hends
      · rename_i result db hstatement
        cases hends
        cases result with
        | error error =>
            exact .inl ⟨db_of_ends_createUser hstatement, by simp⟩
        | ok result =>
            exact .inr (.inl ⟨command, randomUUID, result, rfl, rfl,
              createUser_of_ends hstatement⟩)
  | compensateUser command statement =>
      simp only [Transaction.execute] at hends
      split at hends
      · cases hends
      · rename_i result db hstatement
        cases hends
        cases result with
        | error error =>
            exact .inl ⟨db_of_ends_compensateUser hstatement, by simp⟩
        | ok result =>
            exact .inr (.inr ⟨command, result, rfl, h.1,
              compensateUser_of_ends h.2 hstatement⟩)

/-- What the end of a transaction does to the tables. -/
structure Changed (world : World) (transaction : Transaction) (db' : IdentityDatabase) :
    Prop where
  linked : Linked db'
  users : ∀ id, drawn transaction ≠ some id →
    db'.users.row id = world.db.users.row id ∨ db'.users.row id = none
  receipts : ∀ key receipt, db'.userCompensationReceipts.row key = some receipt →
    world.db.userCompensationReceipts.row key = some receipt ∨
      Known world receipt.userId ∧ db'.users.row receipt.userId = none

theorem changed_of_ends (hlinked : Linked world.db) (h : Holds world transaction)
    (hends : transaction.execute world.db = .ends answer db') :
    Changed world transaction db' := by
  rcases ends_cases h hends with ⟨rfl, _⟩ | ⟨command, randomUUID, result, hdrawn, _, hdb⟩ |
    ⟨command, result, _, hknown, hdb⟩
  · exact ⟨hlinked, fun _ _ => .inl rfl, fun _ _ hrow => .inl hrow⟩
  · obtain ⟨hkept, husers, hreceipts⟩ := createUser_changes hdb
    refine ⟨hkept hlinked, ?_, ?_⟩
    · intro id hid
      refine .inl (husers id ?_)
      rintro rfl
      exact hid hdrawn
    · intro key receipt hrow
      rw [hreceipts] at hrow
      exact .inl hrow
  · obtain ⟨hkept, husers, hreceipts⟩ := compensateUser_changes hdb
    refine ⟨hkept hlinked, fun id _ => husers id, ?_⟩
    intro key receipt hrow
    rcases hreceipts key receipt hrow with hold | ⟨htarget, hgone⟩
    · exact .inl hold
    · exact .inr ⟨hknown _ htarget, hgone⟩

/-- The world that a transaction leaves when it ends. -/
def ended (world : World) (tx : Nat) (db : IdentityDatabase) : World :=
  { world.set tx none with
    db := db
    secret := world.secret.filter fun id => (db.users.row id).isNone }

theorem later_ended (h : Consistent world)
    (htx : world.transactions tx = some transaction)
    (hchanged : Changed world transaction db') : Later world (ended world tx db') where
  known := fun _ hid => ⟨hid.1, fun hmem => hid.2 (List.mem_of_mem_filter hmem)⟩
  users := by
    intro id hid
    refine hchanged.users id ?_
    intro hdrawn
    exact hid.2 (h.secret_of_drawn htx hdrawn)

theorem Consistent.ended (h : Consistent world)
    (htx : world.transactions tx = some transaction)
    (hchanged : Changed world transaction db') : Consistent (ended world tx db') := by
  have hself : (Store.ended world tx db').transactions tx = none :=
    world.transactions_set_self tx none
  refine h.moves (later_ended h htx hchanged) tx hchanged.linked ?_ ?_ ?_ ?_ ?_ ?_
  · intro id hid
    obtain ⟨hmem, hnone⟩ := List.mem_filter.mp hid
    exact ⟨(h.secret id hmem).1, Option.isNone_iff_eq_none.mp hnone⟩
  · intro id hid
    by_cases hdrawn : drawn transaction = some id
    · exact (h.secret id (h.secret_of_drawn htx hdrawn)).1
    · rcases hchanged.users id hdrawn with hsame | hgone
      · exact h.users id (hsame ▸ hid)
      · simp [Store.ended, hgone] at hid
  · intro key receipt hrow
    rcases hchanged.receipts key receipt hrow with hold | ⟨hknown, hgone⟩
    · exact .inl hold
    · exact .inr ⟨(later_ended h htx hchanged).known _ hknown, hgone⟩
  · exact fun tx' hne => world.transactions_set_of_ne hne none
  · intro tx' other id hne hother hid
    have hmem := h.secret_of_drawn hother hid
    refine ⟨List.mem_filter.mpr ⟨hmem, ?_⟩, by simp [hself]⟩
    rw [Option.isNone_iff_eq_none]
    have hmine : drawn transaction ≠ some id :=
      fun hdrawn => h.distinct tx transaction htx tx' other hother hne id hdrawn hid
    rcases hchanged.users id hmine with hsame | hgone
    · exact hsame.trans (h.secret id hmem).2
    · exact hgone
  · simp [hself]

theorem later_of_same (hdb : next.db = world.db) (hsecret : next.secret = world.secret)
    (hused : ∀ id ∈ world.used, id ∈ next.used) : Later world next where
  known := by
    rintro id ⟨hmem, hnew⟩
    refine ⟨hused id hmem, ?_⟩
    rw [hsecret]
    exact hnew
  users := fun _ _ => .inl (by rw [hdb])

theorem Consistent.stays (h : Consistent world) (tx : Nat) (hdb : next.db = world.db)
    (hsecret : next.secret = world.secret) (hused : ∀ id ∈ world.used, id ∈ next.used)
    (hothers : ∀ tx', tx' ≠ tx → next.transactions tx' = world.transactions tx')
    (hself : ∀ moved, next.transactions tx = some moved → Holds next moved ∧
      ∀ id, drawn moved = some id → ∃ transaction,
        world.transactions tx = some transaction ∧ drawn transaction = some id) :
    Consistent next := by
  refine h.moves (later_of_same hdb hsecret hused) tx ?_ ?_ ?_ ?_ hothers ?_
    fun moved hmoved => (hself moved hmoved).1
  · rw [hdb]
    exact h.linked
  · rw [hdb, hsecret]
    intro id hid
    exact ⟨hused id (h.secret id hid).1, (h.secret id hid).2⟩
  · rw [hdb]
    exact fun id hid => hused id (h.users id hid)
  · rw [hdb]
    exact fun key receipt hrow => .inl hrow
  · intro tx' other id hne hother hid
    rw [hsecret]
    refine ⟨h.secret_of_drawn hother hid, ?_⟩
    intro moved hmoved hdrawn
    obtain ⟨transaction, htx, hmine⟩ := (hself moved hmoved).2 id hdrawn
    exact h.distinct tx transaction htx tx' other hother hne id hmine hid

theorem consistent_createUser (h : Consistent world) {command : UserCreateCommandMessage}
    {randomUUID : UUID}
    (hstep : step world (.createUser tx command randomUUID) = some next) :
    Consistent next ∧ Later world next := by
  obtain ⟨⟨hfree, hnew⟩, hnext⟩ := Option.ite_none_right_eq_some.mp hstep
  obtain rfl := Option.some.inj hnext
  have hlater : Later world
      { world.set tx (some (.createUser command randomUUID .findRequest)) with
        used := randomUUID :: world.used
        secret := randomUUID :: world.secret } := by
    constructor
    · rintro id ⟨hmem, hnot⟩
      refine ⟨List.mem_cons_of_mem _ hmem, ?_⟩
      rw [List.mem_cons, not_or]
      refine ⟨?_, hnot⟩
      rintro rfl
      exact hnew hmem
    · exact fun _ _ => .inl rfl
  refine ⟨h.moves hlater tx h.linked ?_ ?_ ?_ ?_ ?_ ?_, hlater⟩
  · intro id hid
    rcases List.mem_cons.mp hid with rfl | hold
    · refine ⟨List.mem_cons_self, ?_⟩
      rw [← Option.not_isSome_iff_eq_none]
      exact fun hsome => hnew (h.users id hsome)
    · exact ⟨List.mem_cons_of_mem _ (h.secret id hold).1, (h.secret id hold).2⟩
  · exact fun id hid => List.mem_cons_of_mem _ (h.users id hid)
  · exact fun _ _ hrow => .inl hrow
  · exact fun tx' hne => world.transactions_set_of_ne hne _
  · intro tx' other id hne hother hid
    have hmem := h.secret_of_drawn hother hid
    refine ⟨List.mem_cons_of_mem _ hmem, ?_⟩
    intro moved hmoved
    simp only [World.transactions_set_self, Option.some.injEq] at hmoved
    rw [← hmoved, drawn, Ne, Option.some.injEq]
    rintro rfl
    exact hnew (h.secret _ hmem).1
  · intro moved hmoved
    simp only [World.transactions_set_self, Option.some.injEq] at hmoved
    rw [← hmoved]
    exact List.mem_cons_self

theorem consistent_compensateUser (h : Consistent world)
    {command : UserCompensationCommandMessage}
    (hstep : step world (.compensateUser tx command) = some next) :
    Consistent next ∧ Later world next := by
  obtain ⟨⟨hfree, hpublic⟩, hnext⟩ := Option.ite_none_right_eq_some.mp hstep
  obtain rfl := Option.some.inj hnext
  have hused : ∀ id ∈ world.used,
      id ∈ (UUID.fromString command.payload.userId).toList ++ world.used :=
    fun id hid => List.mem_append_right _ hid
  refine ⟨h.stays tx rfl rfl hused ?_ ?_, later_of_same rfl rfl hused⟩
  · exact fun tx' hne => world.transactions_set_of_ne hne _
  · intro moved hmoved
    simp only [World.transactions_set_self, Option.some.injEq] at hmoved
    subst hmoved
    refine ⟨⟨?_, trivial⟩, by simp [drawn]⟩
    intro userId htarget
    refine ⟨List.mem_append_left _ ?_, hpublic userId htarget⟩
    rw [htarget]
    exact List.mem_singleton_self userId

theorem consistent_execute (h : Consistent world)
    (hstep : step world (.execute tx) = some next) :
    Consistent next ∧ Later world next := by
  obtain ⟨transaction, htx, ⟨moved, hresult, rfl, _⟩ | ⟨answer, db, hresult, rfl, _⟩⟩ :=
    step_execute_cases hstep
  · obtain ⟨hdrawn, hmoved⟩ := holds_of_goes (h.transactions tx transaction htx) hresult
    refine ⟨h.stays tx rfl rfl (fun _ hid => hid) ?_ ?_,
      later_of_same rfl rfl fun _ hid => hid⟩
    · exact fun tx' hne => world.transactions_set_of_ne hne _
    · intro other hother
      simp only [World.transactions_set_self, Option.some.injEq] at hother
      subst hother
      refine ⟨hmoved.later (later_of_same rfl rfl fun _ hid => hid) ?_, ?_⟩
      · intro id hid
        exact h.secret_of_drawn htx (hdrawn ▸ hid)
      · exact fun id hid => ⟨transaction, htx, hdrawn ▸ hid⟩
  · have hchanged := changed_of_ends h.linked (h.transactions tx transaction htx) hresult
    exact ⟨h.ended htx hchanged, later_ended h htx hchanged⟩

theorem consistent_rollback (h : Consistent world)
    (hstep : step world (.rollback tx) = some next) :
    Consistent next ∧ Later world next := by
  obtain rfl := Option.some.inj hstep
  refine ⟨h.stays tx rfl rfl (fun _ hid => hid) ?_ ?_,
    later_of_same rfl rfl fun _ hid => hid⟩
  · exact fun tx' hne => world.transactions_set_of_ne hne _
  · simp

theorem consistent_step (h : Consistent world) {event : Event}
    (hstep : step world event = some next) : Consistent next ∧ Later world next := by
  cases event with
  | createUser tx command randomUUID => exact consistent_createUser h hstep
  | compensateUser tx command => exact consistent_compensateUser h hstep
  | execute tx => exact consistent_execute h hstep
  | rollback tx => exact consistent_rollback h hstep

end Steps

section Runs

variable {trace : List (World × Event)} {world : World}

theorem consistent_of_run (hrun : Run trace world) : Consistent world :=
  hrun.reachable.invariant consistent_init
    fun _ _ _ h hstep => (consistent_step h hstep).1

theorem gone_of_run {start : World} {id : UUID}
    (hrun : StepSystem.Run step start trace world) (h : Consistent start)
    (hgone : Gone start id) : Consistent world ∧ Gone world id :=
  hrun.invariant (I := fun w => Consistent w ∧ Gone w id) (fun _ _ => True) ⟨h, hgone⟩
    (fun _ _ _ h _ hstep => ⟨(consistent_step h.1 hstep).1,
      h.2.later (consistent_step h.1 hstep).2⟩) fun _ _ => trivial

/-- Emails and tax ids are distinct, requests and users are in one-to-one
correspondence, a key has at most one user, and the users of the receipts are gone. -/
structure StoreInvariant (db : IdentityDatabase) : Prop where
  emails : (db.users.rows.map UserEntity.email).Nodup
  taxIds : (db.users.rows.map UserEntity.taxId).Nodup
  owner : ∀ request ∈ db.onboardingRequests.rows,
    ∃! user, user ∈ db.users.rows ∧ user.id = request.userId
  request : ∀ user ∈ db.users.rows,
    ∃! request, request ∈ db.onboardingRequests.rows ∧ request.userId = user.id
  key : ∀ a ∈ db.onboardingRequests.rows, ∀ b ∈ db.onboardingRequests.rows,
    ∀ user ∈ db.users.rows, ∀ other ∈ db.users.rows,
      a.idempotencyKey = b.idempotencyKey → a.userId = user.id → b.userId = other.id →
        user = other
  receipts : ∀ receipt ∈ db.userCompensationReceipts.rows,
    ∀ user ∈ db.users.rows, user.id ≠ receipt.userId

theorem storeInvariant_of_consistent (h : Consistent world) :
    StoreInvariant world.db where
  emails := Table.nodup_column world.db.unique_email
  taxIds := Table.nodup_column world.db.unique_taxId
  owner := by
    intro request hrequest
    obtain ⟨user, huser, hid⟩ := user_of_request hrequest
    refine ⟨user, ⟨huser, hid⟩, ?_⟩
    rintro other ⟨hother, hsame⟩
    exact Table.eq_of_key hother huser (hsame.trans hid.symm)
  request := by
    intro user huser
    obtain ⟨request, hrequest, hid⟩ := h.linked.owned user huser
    refine ⟨request, ⟨hrequest, hid⟩, ?_⟩
    rintro other ⟨hother, hsame⟩
    exact h.linked.single other hother request hrequest (hsame.trans hid.symm)
  key := by
    intro a ha b hb user huser other hother hkey hid hid'
    obtain rfl := Table.eq_of_key ha hb hkey
    exact Table.eq_of_key huser hother (hid.symm.trans hid')
  receipts := by
    intro receipt hreceipt user huser hid
    rw [Table.mem_rows_iff] at hreceipt huser
    rw [hid, (h.receipts _ receipt hreceipt).2] at huser
    cases huser

theorem gone_of_answered {next : World} {event : Event} (h : Consistent world)
    (hstep : step world event = some next) {command : UserCompensationCommandMessage}
    {result : CompensationCommandResult}
    (hanswered : answered (world, event) = some (.compensated command (.ok result))) :
    result.compensated = true ∧ ∃ userId,
      UUID.fromString command.payload.userId = some userId ∧ Gone next userId := by
  cases event with
  | createUser | compensateUser | rollback => cases hanswered
  | execute tx =>
      have hlater := (consistent_step h hstep).2
      obtain ⟨transaction, htx, ⟨_, _, _, hnone⟩ | ⟨answer, db, hresult, rfl, hanswer⟩⟩ :=
        step_execute_cases hstep
      · cases hnone.symm.trans hanswered
      · obtain rfl := Option.some.inj (hanswer.symm.trans hanswered)
        rcases ends_cases (h.transactions tx transaction htx) hresult with
          ⟨_, hother⟩ | ⟨_, _, _, _, hother, _⟩ | ⟨command', result', hsame, hknown, hdb⟩
        · exact absurd rfl (hother command result)
        · cases hother
        · cases hsame
          obtain ⟨hcompensated, hcases⟩ := compensateUser_ok world.db hdb
          refine ⟨hcompensated, ?_⟩
          rcases hcases with ⟨receipt, hrow, htarget, _⟩ | ⟨userId, hnew, hcompensate⟩
          · refine ⟨receipt.userId, ?_, (h.receipts _ receipt hrow).later hlater⟩
            rw [← htarget]
            exact fromString_toString receipt.userId
          · refine ⟨userId, hnew.target, hlater.known _ (hknown _ hnew.target), ?_⟩
            exact (row_users_compensate hcompensate userId).trans (if_pos rfl)

/-- A compensation was answered with success, and its user is in no later state. -/
structure Compensated (command : UserCompensationCommandMessage)
    (result : CompensationCommandResult) (later : List World) : Prop where
  compensated : result.compensated = true
  gone : ∃ userId, UUID.fromString command.payload.userId = some userId ∧
    ∀ w ∈ later, w.db.users.row userId = none

/-- The tables are well related in every state, and what is answered as compensated
stays so. -/
theorem store_invariant (hrun : Run trace world) :
    (∀ w ∈ StepSystem.states trace world, StoreInvariant w.db) ∧
      ∀ before p after, trace = before ++ p :: after → ∀ command result,
        answered p = some (.compensated command (.ok result)) →
          Compensated command result (StepSystem.states after world) := by
  constructor
  · intro w hw
    obtain ⟨before, _, _, hbefore, _⟩ := hrun.split_states hw
    exact storeInvariant_of_consistent (consistent_of_run hbefore)
  · rintro before ⟨start, event⟩ after rfl command result hanswered
    obtain ⟨next, hbefore, hstep, hafter⟩ := StepSystem.Run.split hrun rfl
    have hstart := consistent_of_run hbefore
    obtain ⟨hcompensated, userId, htarget, hgone⟩ :=
      gone_of_answered hstart hstep hanswered
    refine ⟨hcompensated, userId, htarget, ?_⟩
    intro w hw
    obtain ⟨_, _, _, hmiddle, _⟩ := hafter.split_states hw
    exact (gone_of_run hmiddle (consistent_step hstart hstep).1 hgone).2.2

end Runs

section Serial

variable {trace : List (World × Event)} {world next : World}

theorem db_of_step (h : Consistent world) {event : Event}
    (hstep : step world event = some next) :
    next.db = world.db ∨
    (∃ command randomUUID result, randomUUID ∈ world.secret ∧ Known next randomUUID ∧
      createUser world.db command randomUUID = (.ok result, next.db)) ∨
    ∃ command result, compensateUser world.db command = (.ok result, next.db) := by
  cases event with
  | createUser tx command randomUUID =>
      obtain rfl := Option.some.inj (Option.ite_none_right_eq_some.mp hstep).2
      exact .inl rfl
  | compensateUser tx command =>
      obtain rfl := Option.some.inj (Option.ite_none_right_eq_some.mp hstep).2
      exact .inl rfl
  | rollback tx =>
      obtain rfl := Option.some.inj hstep
      exact .inl rfl
  | execute tx =>
      obtain ⟨transaction, htx, ⟨moved, _, rfl, _⟩ | ⟨answer, db, hresult, rfl, _⟩⟩ :=
        step_execute_cases hstep
      · exact .inl rfl
      · rcases ends_cases (h.transactions tx transaction htx) hresult with
          ⟨hsame, _⟩ | ⟨command, randomUUID, result, hdrawn, _, hdb⟩ |
          ⟨command, result, _, _, hdb⟩
        · exact .inl hsame
        · have hsecret := h.secret_of_drawn htx hdrawn
          rcases createUser_ok world.db hdb with
            ⟨_, _, _, _, _, _, hsame⟩ | ⟨_, hinsert, _⟩
          · exact .inl hsame
          · obtain ⟨user, _, hinserted⟩ := insertUser_some hinsert
            have hrow : db.users.row randomUUID = some user :=
              hinserted.row_user_iff.mpr (.inl ⟨rfl, rfl⟩)
            refine .inr (.inl ⟨command, randomUUID, result, hsecret, ?_, hdb⟩)
            exact ⟨(h.secret randomUUID hsecret).1, by simp [hrow]⟩
        · exact .inr (.inr ⟨command, result, hdb⟩)

theorem serial_createUser {σ : Redelivery.World} (command : UserCreateCommandMessage)
    {randomUUID : UUID} (hnew : randomUUID ∉ σ.drawn) :
    ∃ σ', Redelivery.step σ (.createUser command randomUUID) = some σ' ∧
      σ'.db = (createUser σ.db command randomUUID).2 ∧
      σ'.drawn = randomUUID :: σ.drawn := by
  rw [Redelivery.step, if_neg hnew]
  exact ⟨_, rfl, rfl, rfl⟩

theorem serial_compensateUser (σ : Redelivery.World)
    (command : UserCompensationCommandMessage) :
    ∃ σ', Redelivery.step σ (.compensateUser command) = some σ' ∧
      σ'.db = (compensateUser σ.db command).2 ∧ σ'.drawn = σ.drawn :=
  ⟨_, rfl, rfl, rfl⟩

/-- The tables of a run are those of its successful commands, run one at a time in the
order in which they ended. -/
theorem serializable (hrun : Run trace world) :
    ∃ serial σ, Redelivery.Run Redelivery.World.init serial σ ∧ σ.db = world.db ∧
      ∀ id ∈ σ.drawn, Known world id := by
  induction hrun with
  | nil => exact ⟨[], Redelivery.World.init, .nil, rfl, by simp [Redelivery.World.init]⟩
  | snoc hbefore hstep ih =>
      obtain ⟨serial, σ, hserial, hdb, hdrawn⟩ := ih
      have h := consistent_of_run hbefore
      have hlater := (consistent_step h hstep).2
      have hkept : ∀ id ∈ σ.drawn, Known _ id :=
        fun id hid => hlater.known id (hdrawn id hid)
      rcases db_of_step h hstep with hsame |
        ⟨command, randomUUID, result, hsecret, hknown, hcreate⟩ |
        ⟨command, result, hcompensate⟩
      · exact ⟨serial, σ, hserial, hdb.trans hsame.symm, hkept⟩
      · have hnew : randomUUID ∉ σ.drawn := fun hid => (hdrawn randomUUID hid).2 hsecret
        obtain ⟨σ', hσ, hdb', hdrawn'⟩ := serial_createUser command hnew
        refine ⟨_, σ', hserial.snoc hσ, ?_, ?_⟩
        · rw [hdb', hdb, hcreate]
        · rw [hdrawn']
          intro id hid
          rcases List.mem_cons.mp hid with rfl | hold
          · exact hknown
          · exact hkept id hold
      · obtain ⟨σ', hσ, hdb', hdrawn'⟩ := serial_compensateUser σ command
        refine ⟨_, σ', hserial.snoc hσ, ?_, ?_⟩
        · rw [hdb', hdb, hcompensate]
        · rw [hdrawn']
          exact hkept

end Serial

section Samples

open Modularis.Identity.Redelivery (sampleId sampleCreate sampleCompensation)

/-- The creation is delivered twice at once, and its user compensated. -/
def sampleEvents (first second : UUID) : List Event :=
  [.createUser 0 sampleCreate first, .createUser 1 sampleCreate second] ++
    List.replicate 5 (.execute 0) ++ List.replicate 5 (.execute 1) ++
    [.execute 0, .execute 1, .compensateUser 0 sampleCompensation] ++
    List.replicate 5 (.execute 0)

def sampleTrace (first second : UUID) : List (World × Event) :=
  StepSystem.traceOf step World.init (sampleEvents first second)

theorem replay_sampleEvents :
    (StepSystem.replay step World.init (sampleEvents (sampleId 1) (sampleId 2))).map
      (fun world => (world.db.users.keys, world.db.userCompensationReceipts.keys)) =
    some ([], ["compensate:user:key-1"]) := by
  rfl

example : (sampleTrace (sampleId 1) (sampleId 2)).filterMap answered =
      [.created sampleCreate (.ok
          { user :=
              { id := (sampleId 1).toString
                email := "ada@example.com"
                name := "Ada"
                isPremium := false }
            replayed := false }),
        .created sampleCreate (.error userCommandFailed),
        .compensated sampleCompensation (.ok { compensated := true, replayed := false })] := by
  rfl

theorem store_invariant_sample :
    ∃ world, Run (sampleTrace (sampleId 1) (sampleId 2)) world ∧
      world.db.users.keys = [] ∧
      (∀ w ∈ StepSystem.states (sampleTrace (sampleId 1) (sampleId 2)) world,
        StoreInvariant w.db) ∧
      ∀ before p after, sampleTrace (sampleId 1) (sampleId 2) = before ++ p :: after →
        ∀ command result, answered p = some (.compensated command (.ok result)) →
          Compensated command result (StepSystem.states after world) := by
  obtain ⟨world, hreplay, hkeys⟩ := Option.map_eq_some_iff.mp replay_sampleEvents
  have hrun : Run (sampleTrace (sampleId 1) (sampleId 2)) world :=
    StepSystem.run_of_replay hreplay
  exact ⟨world, hrun, congrArg Prod.fst hkeys, store_invariant hrun⟩

end Samples

end Modularis.Identity.Store
