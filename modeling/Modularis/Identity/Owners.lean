import Modularis.Identity.Store

namespace Modularis.Identity.Owners

open Modularis.Foundation
open Modularis.Foundation.Column
open Modularis.Shared.Uuid
open Modularis.Identity.Database
open Modularis.Identity.Service
open Modularis.Identity.Transactions
open Modularis.Identity.Store

/-- The id stands for a key, as its column keeps it: it was drawn for it, stored with it or
answered to it. -/
inductive Owned (world : World) (answers : List Answer) : UUID → Option String → Prop
  | drawn {tx : Nat} {command : UserCreateCommandMessage} {id : UUID}
      {statement : CreateStatement} :
      world.transactions tx = some (.createUser command id statement) →
      Owned world answers id (varchar 128 command.payload.idempotencyKey)
  | stored {key : String} {request : OnboardingRequestEntity} :
      world.db.onboardingRequests.row key = some request →
      Owned world answers request.userId (some key)
  | answered {command : UserCreateCommandMessage} {result : UserCreateCommandResult}
      {id : UUID} :
      .created command (.ok result) ∈ answers → result.user.id = id.toString →
      Owned world answers id (varchar 128 command.payload.idempotencyKey)

/-- The user has the data of the command, as its columns keep them. -/
structure MadeFrom (payload : UserCreateCommandPayload) (user : UserEntity) : Prop where
  email : varchar 255 payload.email = some user.email
  name : varchar 120 payload.name = some user.name
  cellphone : varchar 40 payload.cellphone = some user.cellphone
  taxId : varchar 32 payload.taxId = some user.taxId
  regular : user.premium = false

/-- An answer shows the user as it is stored, or as the command has it. -/
def Shows (payload : UserCreateCommandPayload) (user : UserEntity) (shown : UserPayload) :
    Prop :=
  shown = toPayload user ∨
    shown = toPayload { user with email := payload.email, name := payload.name }

/-- The request of the key is stored with its user. -/
structure Housed (db : IdentityDatabase) (key : String) (user : UserEntity) : Prop where
  request : ∃ request, db.onboardingRequests.row key = some request ∧
    request.userId = user.id
  row : db.users.row user.id = some user

/-- A receipt names the user. -/
def Receipted (db : IdentityDatabase) (id : UUID) : Prop :=
  ∃ key receipt, db.userCompensationReceipts.row key = some receipt ∧ receipt.userId = id

section Tables

variable {db db' : IdentityDatabase}

theorem housed_insertUser {key : String} {user other : UserEntity}
    {request : OnboardingRequestEntity} (h : Housed db key user)
    (hinsert : db.insertUser other request = some db') : Housed db' key user := by
  obtain ⟨_, _, hinserted⟩ := insertUser_some hinsert
  obtain ⟨stored, hstored, hid⟩ := h.request
  exact ⟨⟨stored, hinserted.row_request_iff.mpr (.inr hstored), hid⟩,
    hinserted.row_user_iff.mpr (.inr h.row)⟩

theorem housed_compensate {key : String} {user : UserEntity}
    {receipt : UserCompensationReceiptEntity} (h : Housed db key user)
    (hne : user.id ≠ receipt.userId) (hcompensate : db.compensate receipt = some db') :
    Housed db' key user := by
  obtain ⟨stored, hstored, hid⟩ := h.request
  refine ⟨⟨stored, row_requests_compensate hcompensate hstored (hid.trans_ne hne), hid⟩, ?_⟩
  rw [row_users_compensate hcompensate, if_neg hne]
  exact h.row

theorem receipted_compensate {receipt : UserCompensationReceiptEntity} {id : UUID}
    (hcompensate : db.compensate receipt = some db') :
    Receipted db' id ↔ id = receipt.userId ∨ Receipted db id := by
  obtain ⟨receipt', hremoved⟩ := compensate_some hcompensate
  simp only [Receipted, hremoved.receipts, Table.row_insertIfAbsent_iff hremoved.key,
    ← hremoved.userId]
  constructor
  · rintro ⟨key, stored, ⟨_, rfl⟩ | hold, rfl⟩
    · exact .inl rfl
    · exact .inr ⟨key, stored, hold, rfl⟩
  · rintro (rfl | ⟨key, stored, hold, hid⟩)
    · exact ⟨_, receipt', .inl ⟨rfl, rfl⟩, rfl⟩
    · exact ⟨key, stored, .inr hold, hid⟩

end Tables

/-- How a transaction ends, with what it leaves. -/
inductive Ending (db : IdentityDatabase) :
    Transaction → Answer → IdentityDatabase → Prop
  | kept {transaction : Transaction} {answer : Answer} :
      (∀ command result, answer ≠ .created command (.ok result)) →
      Ending db transaction answer db
  | found {command : UserCreateCommandMessage} {id : UUID} {statement : CreateStatement}
      {result : UserCreateCommandResult} {request : OnboardingRequestEntity}
      {user : UserEntity} :
      db.onboardingRequests.row command.payload.idempotencyKey = some request →
      db.users.row request.userId = some user → result.user = toPayload user →
      Ending db (.createUser command id statement) (.created command (.ok result)) db
  | inserted {command : UserCreateCommandMessage} {id : UUID} {statement : CreateStatement}
      {result : UserCreateCommandResult} {db' : IdentityDatabase} :
      db.insertUser (newUser command id) (newRequest command id) = some db' →
      result.user = toPayload (newUser command id) →
      Ending db (.createUser command id statement) (.created command (.ok result)) db'
  | compensated {command : UserCompensationCommandMessage} {statement : CompensateStatement}
      {answer : Answer} {userId : UUID} {db' : IdentityDatabase} :
      (∀ command result, answer ≠ .created command (.ok result)) →
      Compensates db command userId →
      db.compensate (newReceipt command userId) = some db' →
      Ending db (.compensateUser command statement) answer db'

theorem ending_of_ends {world : World} {transaction : Transaction} {answer : Answer}
    {db' : IdentityDatabase} (h : Holds world transaction)
    (hends : transaction.execute world.db = .ends answer db') :
    Ending world.db transaction answer db' := by
  cases transaction with
  | createUser command id statement =>
      simp only [Transaction.execute] at hends
      split at hends
      · cases hends
      · rename_i result db hstatement
        cases hends
        cases result with
        | error error =>
            rw [db_of_ends_createUser hstatement]
            exact .kept (by simp)
        | ok result =>
            rcases createUser_ok world.db (createUser_of_ends hstatement) with
              ⟨request, user, hrow, _, huser, hresult, rfl⟩ | ⟨_, hinsert, hresult⟩
            · exact .found hrow huser hresult
            · exact .inserted hinsert hresult
  | compensateUser command statement =>
      simp only [Transaction.execute] at hends
      split at hends
      · cases hends
      · rename_i result db hstatement
        cases hends
        cases result with
        | error error =>
            rw [db_of_ends_compensateUser hstatement]
            exact .kept (by simp)
        | ok result =>
            rcases (compensateUser_ok world.db (compensateUser_of_ends h.2 hstatement)).2 with
              ⟨_, _, _, rfl⟩ | ⟨userId, hcompensates, hcompensate⟩
            · exact .kept (by simp)
            · exact .compensated (by simp) hcompensates hcompensate

theorem execute_goes_cases {db : IdentityDatabase} {transaction moved : Transaction}
    (h : transaction.execute db = .goes moved) :
    (∃ command id statement statement', transaction = .createUser command id statement ∧
      moved = .createUser command id statement') ∨
    ∃ command statement statement', transaction = .compensateUser command statement ∧
      moved = .compensateUser command statement' := by
  cases transaction with
  | createUser command id statement =>
      simp only [Transaction.execute] at h
      split at h
      · cases h
        exact .inl ⟨command, id, statement, _, rfl, rfl⟩
      · cases h
  | compensateUser command statement =>
      simp only [Transaction.execute] at h
      split at h
      · cases h
        exact .inr ⟨command, statement, _, rfl, rfl⟩
      · cases h

section Steps

variable {allowed : UserCreateCommandPayload → Prop} {named : UUID → Prop}
  {world next : World} {answers : List Answer} {event : Event}

/-- The transaction runs a command that is running. -/
def Begun (world : World) : Transaction → Prop
  | .createUser command id _ =>
      ∃ tx statement, world.transactions tx = some (.createUser command id statement)
  | .compensateUser command _ =>
      ∃ tx statement, world.transactions tx = some (.compensateUser command statement)

/-- The event begins the transaction. -/
def Opens : Event → Transaction → Prop
  | .createUser _ command id, .createUser command' id' _ => command' = command ∧ id' = id
  | .compensateUser _ command, .compensateUser command' _ => command' = command
  | _, _ => False

/-- What a step does to the tables, with its answer. -/
inductive Progress (world next : World) : Option Answer → Prop
  | stays : next.db = world.db → Progress world next none
  | ends {tx : Nat} {transaction : Transaction} {answer : Answer} :
      world.transactions tx = some transaction →
      Ending world.db transaction answer next.db → Progress world next (some answer)

theorem begun_of_transaction {tx : Nat} {transaction : Transaction}
    (h : world.transactions tx = some transaction) : Begun world transaction := by
  cases transaction with
  | createUser => exact ⟨tx, _, h⟩
  | compensateUser => exact ⟨tx, _, h⟩

theorem progress_of_step (hc : Consistent world) (hstep : step world event = some next) :
    Progress world next (answered (world, event)) := by
  cases event with
  | createUser =>
      obtain rfl := Option.some.inj (Option.ite_none_right_eq_some.mp hstep).2
      exact .stays rfl
  | compensateUser =>
      obtain rfl := Option.some.inj (Option.ite_none_right_eq_some.mp hstep).2
      exact .stays rfl
  | rollback =>
      obtain rfl := Option.some.inj hstep
      exact .stays rfl
  | execute tx =>
      obtain ⟨transaction, htx, ⟨moved, _, rfl, hanswer⟩ | ⟨answer, db, hends, rfl, hanswer⟩⟩ :=
        step_execute_cases hstep
      · rw [hanswer]
        exact .stays rfl
      · rw [hanswer]
        exact .ends htx (ending_of_ends (hc.transactions tx transaction htx) hends)

theorem begun_of_step (hstep : step world event = some next) {tx : Nat}
    {transaction : Transaction} (htx : next.transactions tx = some transaction) :
    Begun world transaction ∨ Opens event transaction := by
  have hothers : ∀ tx' (changed : Option Transaction),
      (world.set tx' changed).transactions tx = some transaction →
      changed = some transaction ∨ Begun world transaction := by
    intro tx' changed hset
    by_cases hsame : tx = tx'
    · rw [hsame, World.transactions_set_self] at hset
      exact .inl hset
    · rw [World.transactions_set_of_ne _ hsame] at hset
      exact .inr (begun_of_transaction hset)
  cases event with
  | createUser tx' command id =>
      obtain rfl := Option.some.inj (Option.ite_none_right_eq_some.mp hstep).2
      rcases hothers tx' _ htx with hnew | hold
      · cases hnew
        exact .inr ⟨rfl, rfl⟩
      · exact .inl hold
  | compensateUser tx' command =>
      obtain rfl := Option.some.inj (Option.ite_none_right_eq_some.mp hstep).2
      rcases hothers tx' _ htx with hnew | hold
      · cases hnew
        exact .inr rfl
      · exact .inl hold
  | rollback tx' =>
      obtain rfl := Option.some.inj hstep
      rcases hothers tx' none htx with hnew | hold
      · cases hnew
      · exact .inl hold
  | execute tx' =>
      obtain ⟨running, hrunning, ⟨moved, hgoes, rfl, _⟩ | ⟨answer, db, _, rfl, _⟩⟩ :=
        step_execute_cases hstep
      · rcases hothers tx' _ htx with hnew | hold
        · obtain rfl := Option.some.inj hnew
          rcases execute_goes_cases hgoes with
            ⟨command, id, statement, statement', rfl, rfl⟩ |
            ⟨command, statement, statement', rfl, rfl⟩
          · exact .inl ⟨tx', statement, hrunning⟩
          · exact .inl ⟨tx', statement, hrunning⟩
        · exact .inl hold
      · rcases hothers tx' none htx with hnew | hold
        · cases hnew
        · exact .inl hold

theorem used_of_step (hstep : step world event = some next) : world.used ⊆ next.used := by
  cases event with
  | createUser =>
      obtain rfl := Option.some.inj (Option.ite_none_right_eq_some.mp hstep).2
      exact List.subset_cons_self _ _
  | compensateUser =>
      obtain rfl := Option.some.inj (Option.ite_none_right_eq_some.mp hstep).2
      exact List.subset_append_right _ _
  | rollback =>
      obtain rfl := Option.some.inj hstep
      exact List.Subset.refl _
  | execute =>
      obtain ⟨_, _, ⟨_, _, rfl, _⟩ | ⟨_, _, _, rfl, _⟩⟩ := step_execute_cases hstep
      · exact List.Subset.refl _
      · exact List.Subset.refl _

theorem owned_of_step (hc : Consistent world) (hstep : step world event = some next)
    {id : UUID} {key : Option String}
    (howned : Owned next (answers ++ (answered (world, event)).toList) id key) :
    Owned world answers id key ∨
      id ∉ world.used ∧ id ∈ next.used ∧ ∃ tx command,
        event = .createUser tx command id ∧
          varchar 128 command.payload.idempotencyKey = key := by
  have hprogress := progress_of_step hc hstep
  cases howned with
  | @drawn tx command _ statement htx =>
      rcases begun_of_step hstep htx with ⟨tx', statement', hbegun⟩ | hopens
      · exact .inl (.drawn hbegun)
      · cases event with
        | createUser tx' command' id' =>
            obtain ⟨rfl, rfl⟩ := hopens
            obtain ⟨⟨_, hnew⟩, hnext⟩ := Option.ite_none_right_eq_some.mp hstep
            obtain rfl := Option.some.inj hnext
            exact .inr ⟨hnew, List.mem_cons_self, tx', command, rfl, rfl⟩
        | _ => exact hopens.elim
  | @stored _ request hrow =>
      left
      cases hanswer : answered (world, event) with
      | none =>
          rw [hanswer] at hprogress
          cases hprogress with
          | stays hdb => exact .stored (hdb ▸ hrow)
      | some answer =>
          rw [hanswer] at hprogress
          cases hprogress with
          | @ends tx transaction _ htx hending =>
              generalize next.db = db' at hending hrow
              cases hending with
              | kept => exact .stored hrow
              | found => exact .stored hrow
              | inserted hinsert =>
                  obtain ⟨_, _, hinserted⟩ := insertUser_some hinsert
                  rcases hinserted.row_request_iff.mp hrow with ⟨rfl, rfl⟩ | hold
                  · rw [hinserted.reference, hinserted.user_id, ← hinserted.varchar_key]
                    exact .drawn htx
                  · exact .stored hold
              | compensated _ _ hcompensate =>
                  obtain ⟨_, hremoved⟩ := compensate_some hcompensate
                  rw [hremoved.requests, Table.row_restrict,
                    Option.filter_eq_some_iff] at hrow
                  exact .stored hrow.1
  | @answered command result _ hmem hid =>
      left
      rcases List.mem_append.mp hmem with hold | hnew
      · exact .answered hold hid
      · rw [Option.mem_toList.mp hnew] at hprogress
        cases hprogress with
        | @ends tx transaction _ htx hending =>
            generalize next.db = db' at hending
            cases hending with
            | kept hother | compensated hother => exact absurd rfl (hother command result)
            | @found _ _ _ _ request user hrow huser hresult =>
                rw [hresult] at hid
                obtain rfl := toString_injective hid
                rw [world.db.users.key_row _ _ huser, varchar_of_row_request hrow]
                exact .stored hrow
            | @inserted _ drawn _ _ _ _ hresult =>
                rw [hresult] at hid
                obtain rfl := toString_injective hid
                exact .drawn htx

end Steps

section Account

variable {allowed : UserCreateCommandPayload → Prop} {named : UUID → Prop}
  {world next : World} {answers : List Answer} {event : Event}

/-- The event creates an allowed user or names one. -/
def Fits (allowed : UserCreateCommandPayload → Prop) (named : UUID → Prop) : Event → Prop
  | .createUser _ command _ => allowed command.payload
  | .compensateUser _ command =>
      ∀ id, UUID.fromString command.payload.userId = some id → named id
  | _ => True

theorem fits_of_opens {transaction : Transaction} (h : Fits allowed named event)
    (hopens : Opens event transaction) : match transaction with
      | .createUser command _ _ => allowed command.payload
      | .compensateUser command _ =>
          ∀ id, UUID.fromString command.payload.userId = some id → named id := by
  cases event with
  | createUser =>
      cases transaction with
      | createUser =>
          obtain ⟨rfl, rfl⟩ := hopens
          exact h
      | compensateUser => exact hopens.elim
  | compensateUser =>
      cases transaction with
      | createUser => exact hopens.elim
      | compensateUser =>
          obtain rfl := hopens
          exact h
  | _ => exact hopens.elim

/-- The request of the key is stored with a user that was allowed. -/
def Settled (allowed : UserCreateCommandPayload → Prop) (db : IdentityDatabase)
    (key : String) (user : UserEntity) : Prop :=
  ∃ payload, allowed payload ∧ varchar 128 payload.idempotencyKey = some key ∧
    MadeFrom payload user ∧ Housed db key user

theorem madeFrom_of_stored {command : UserCreateCommandMessage} {id : UUID}
    {user : UserEntity} (h : (newUser command id).stored = some user) :
    MadeFrom command.payload user := by
  obtain ⟨_, hemail, hname, hcellphone, htaxId, hpremium⟩ := UserEntity.stored_eq_some_iff.mp h
  exact ⟨hemail, hname, hcellphone, htaxId, hpremium⟩

theorem shows_newUser {command : UserCreateCommandMessage} {id : UUID} {user : UserEntity}
    (h : (newUser command id).stored = some user) :
    Shows command.payload user (toPayload (newUser command id)) := by
  obtain ⟨hid, _, _, _, _, hpremium⟩ := UserEntity.stored_eq_some_iff.mp h
  right
  simp only [toPayload, hid, hpremium]
  rfl

theorem housed_inserted {db db' : IdentityDatabase} {user user' : UserEntity}
    {request request' : OnboardingRequestEntity}
    (h : Inserted db db' user request user' request') :
    Housed db' request'.idempotencyKey user' :=
  ⟨⟨request', h.row_request_iff.mpr (.inl ⟨rfl, rfl⟩), h.reference⟩,
    h.row_user_iff.mpr (.inl ⟨h.user_id, rfl⟩)⟩

theorem settled_of_ending {transaction : Transaction} {answer : Answer}
    {db db' : IdentityDatabase} (hending : Ending db transaction answer db')
    (hcreates : ∀ command id statement, transaction = .createUser command id statement →
      allowed command.payload)
    (hsettled : ∀ key request, db.onboardingRequests.row key = some request →
      ∃ user, Settled allowed db key user)
    {key : String} {request : OnboardingRequestEntity}
    (hrow : db'.onboardingRequests.row key = some request) :
    ∃ user, Settled allowed db' key user := by
  cases hending with
  | kept => exact hsettled key request hrow
  | found => exact hsettled key request hrow
  | @inserted command id statement result db' hinsert =>
      obtain ⟨user, request', hinserted⟩ := insertUser_some hinsert
      rcases hinserted.row_request_iff.mp hrow with ⟨rfl, rfl⟩ | hold
      · exact ⟨user, command.payload, hcreates command id statement rfl,
          hinserted.varchar_key, madeFrom_of_stored hinserted.storedUser,
          housed_inserted hinserted⟩
      · obtain ⟨user, payload, hpayload, hkey, hmade, hhoused⟩ := hsettled key request hold
        exact ⟨user, payload, hpayload, hkey, hmade, housed_insertUser hhoused hinsert⟩
  | @compensated command statement _ userId _ _ _ hcompensate =>
      obtain ⟨_, hremoved⟩ := compensate_some hcompensate
      rw [hremoved.requests, Table.row_restrict, Option.filter_eq_some_iff] at hrow
      obtain ⟨user, payload, hpayload, hkey, hmade, hhoused⟩ := hsettled key request hrow.1
      obtain ⟨stored, hstored, hid⟩ := hhoused.request
      obtain rfl := Option.some.inj (hrow.1.symm.trans hstored)
      have hne : user.id ≠ (newReceipt command userId).userId := by
        rw [← hid]
        exact of_decide_eq_true hrow.2
      exact ⟨user, payload, hpayload, hkey, hmade, housed_compensate hhoused hne hcompensate⟩

theorem receipted_of_ending {transaction : Transaction} {answer : Answer}
    {db db' : IdentityDatabase} (hending : Ending db transaction answer db') {id : UUID}
    (h : Receipted db' id) : Receipted db id ∨
      ∃ command statement, transaction = .compensateUser command statement ∧
        UUID.fromString command.payload.userId = some id := by
  cases hending with
  | kept => exact .inl h
  | found => exact .inl h
  | inserted hinsert =>
      obtain ⟨_, _, hinserted⟩ := insertUser_some hinsert
      rw [Receipted, hinserted.receipts] at h
      exact .inl h
  | @compensated command statement _ userId _ _ hcompensates hcompensate =>
      rcases (receipted_compensate hcompensate).mp h with rfl | hold
      · exact .inr ⟨command, statement, rfl, hcompensates.target⟩
      · exact .inl hold

theorem housed_of_ending {transaction : Transaction} {answer : Answer}
    {db db' : IdentityDatabase} (hending : Ending db transaction answer db') {key : String}
    {user : UserEntity} (h : Housed db key user ∨ Receipted db user.id) :
    Housed db' key user ∨ Receipted db' user.id := by
  cases hending with
  | kept => exact h
  | found => exact h
  | inserted hinsert =>
      rcases h with hhoused | hreceipted
      · exact .inl (housed_insertUser hhoused hinsert)
      · obtain ⟨_, _, hinserted⟩ := insertUser_some hinsert
        rw [Receipted, ← hinserted.receipts] at hreceipted
        exact .inr hreceipted
  | @compensated command statement _ userId _ _ hcompensates hcompensate =>
      rw [receipted_compensate hcompensate]
      rcases h with hhoused | hreceipted
      · by_cases hsame : user.id = userId
        · exact .inr (.inl hsame)
        · exact .inl (housed_compensate hhoused hsame hcompensate)
      · exact .inr (.inr hreceipted)

end Account

section Accounts

variable (allowed : UserCreateCommandPayload → Prop) (named : UUID → Prop)

/-- What is known of the tables and the answers where only `allowed` commands create
users and only `named` users are compensated. -/
structure Accounted (world : World) (answers : List Answer) : Prop where
  consistent : Consistent world
  started : ∀ tx command id statement,
    world.transactions tx = some (.createUser command id statement) → allowed command.payload
  aimed : ∀ tx command statement,
    world.transactions tx = some (.compensateUser command statement) →
      ∀ id, UUID.fromString command.payload.userId = some id → named id
  settled : ∀ key request, world.db.onboardingRequests.row key = some request →
    ∃ user, Settled allowed world.db key user
  receipted : ∀ id, Receipted world.db id → named id
  single : ∀ id key key', Owned world answers id key → Owned world answers id key' → key = key'
  used : ∀ id key, Owned world answers id key → id ∈ world.used
  answered : ∀ command result, .created command (.ok result) ∈ answers →
    ∃ payload user key, allowed payload ∧ varchar 128 payload.idempotencyKey = some key ∧
      varchar 128 command.payload.idempotencyKey = some key ∧ MadeFrom payload user ∧
      Shows payload user result.user ∧ Known world user.id ∧
      (Housed world.db key user ∨ Receipted world.db user.id)

variable {allowed named}

theorem accounted_init : Accounted allowed named World.init [] where
  consistent := consistent_init
  started := nofun
  aimed := nofun
  settled := nofun
  receipted := by
    rintro id ⟨key, receipt, hrow, _⟩
    cases hrow
  single := by
    intro id key key' h
    cases h with
    | drawn htx => cases htx
    | stored hrow => cases hrow
    | answered hmem => cases hmem
  used := by
    intro id key h
    cases h with
    | drawn htx => cases htx
    | stored hrow => cases hrow
    | answered hmem => cases hmem
  answered := nofun

theorem Accounted.mono {allowed' : UserCreateCommandPayload → Prop} {named' : UUID → Prop}
    {world : World} {answers : List Answer} (h : Accounted allowed named world answers)
    (hallowed : ∀ payload, allowed payload → allowed' payload)
    (hnamed : ∀ id, named id → named' id) : Accounted allowed' named' world answers where
  consistent := h.consistent
  started := fun tx command id statement htx => hallowed _ (h.started tx command id statement htx)
  aimed := fun tx command statement htx id hid =>
    hnamed id (h.aimed tx command statement htx id hid)
  settled := by
    intro key request hrow
    obtain ⟨user, payload, hpayload, hrest⟩ := h.settled key request hrow
    exact ⟨user, payload, hallowed payload hpayload, hrest⟩
  receipted := fun id hid => hnamed id (h.receipted id hid)
  single := h.single
  used := h.used
  answered := by
    intro command result hmem
    obtain ⟨payload, user, key, hpayload, hrest⟩ := h.answered command result hmem
    exact ⟨payload, user, key, hallowed payload hpayload, hrest⟩

theorem accounted_step (h : Accounted allowed named world answers)
    (hfits : Fits allowed named event) (hstep : step world event = some next) :
    Accounted allowed named next (answers ++ (Transactions.answered (world, event)).toList) := by
  obtain ⟨hconsistent, hlater⟩ := consistent_step h.consistent hstep
  have hprogress := progress_of_step h.consistent hstep
  refine
    { consistent := hconsistent
      started := ?_
      aimed := ?_
      settled := ?_
      receipted := ?_
      single := ?_
      used := ?_
      answered := ?_ }
  · intro tx command id statement htx
    rcases begun_of_step hstep htx with ⟨tx', statement', hbegun⟩ | hopens
    · exact h.started tx' command id statement' hbegun
    · exact fits_of_opens hfits hopens
  · intro tx command statement htx
    rcases begun_of_step hstep htx with ⟨tx', statement', hbegun⟩ | hopens
    · exact h.aimed tx' command statement' hbegun
    · exact fits_of_opens hfits hopens
  · intro key request hrow
    generalize Transactions.answered (world, event) = answer at hprogress
    cases hprogress with
    | stays hdb =>
        rw [hdb] at hrow ⊢
        exact h.settled key request hrow
    | @ends tx transaction _ htx hending =>
        refine settled_of_ending hending ?_ h.settled hrow
        rintro command id statement rfl
        exact h.started tx command id statement htx
  · intro id hid
    generalize Transactions.answered (world, event) = answer at hprogress
    cases hprogress with
    | stays hdb =>
        rw [hdb] at hid
        exact h.receipted id hid
    | @ends tx transaction _ htx hending =>
        rcases receipted_of_ending hending hid with hold | ⟨command, statement, rfl, htarget⟩
        · exact h.receipted id hold
        · exact h.aimed tx command statement htx id htarget
  · intro id key key' hkey hkey'
    rcases owned_of_step h.consistent hstep hkey with
      hold | ⟨hnew, _, tx, command, hevent, rfl⟩
    · rcases owned_of_step h.consistent hstep hkey' with hold' | ⟨hnew', _⟩
      · exact h.single id key key' hold hold'
      · exact absurd (h.used id key hold) hnew'
    · rcases owned_of_step h.consistent hstep hkey' with
        hold' | ⟨_, _, tx', command', hevent', rfl⟩
      · exact absurd (h.used id key' hold') hnew
      · cases hevent.symm.trans hevent'
        rfl
  · intro id key hkey
    rcases owned_of_step h.consistent hstep hkey with hold | ⟨_, hused, _⟩
    · exact used_of_step hstep (h.used id key hold)
    · exact hused
  · intro command result hmem
    rcases List.mem_append.mp hmem with hold | hnew
    · obtain ⟨payload, user, key, hpayload, hkey, hkey', hmade, hresult, hknown, hhoused⟩ :=
        h.answered command result hold
      refine ⟨payload, user, key, hpayload, hkey, hkey', hmade, hresult,
        hlater.known _ hknown, ?_⟩
      generalize Transactions.answered (world, event) = answer at hprogress
      cases hprogress with
      | stays hdb =>
          rw [hdb]
          exact hhoused
      | ends htx hending => exact housed_of_ending hending hhoused
    · have hanswer := Option.mem_toList.mp hnew
      rw [hanswer] at hprogress
      have hknown : ∀ user : UserEntity, next.db.users.row user.id = some user →
          Known next user.id := by
        intro user huser
        have hsome : (next.db.users.row user.id).isSome := by rw [huser]; rfl
        refine ⟨hconsistent.users user.id hsome, fun hsecret => ?_⟩
        cases huser.symm.trans (hconsistent.secret user.id hsecret).2
      cases hprogress with
      | @ends tx transaction _ htx hending =>
          generalize hdb : next.db = db' at hending hknown ⊢
          cases hending with
          | kept hother | compensated hother => exact absurd rfl (hother command result)
          | @found _ _ _ _ request user hrow huser hresult =>
              obtain ⟨owner, payload, hpayload, hkey, hmade, hhoused⟩ :=
                h.settled _ request hrow
              obtain ⟨stored, hstored, hid⟩ := hhoused.request
              obtain rfl := Option.some.inj (hrow.symm.trans hstored)
              rw [hid, hhoused.row] at huser
              obtain rfl := Option.some.inj huser
              exact ⟨payload, owner, _, hpayload, hkey, varchar_of_row_request hrow, hmade,
                .inl hresult, hknown owner hhoused.row, .inl hhoused⟩
          | @inserted _ id statement _ _ hinsert hresult =>
              obtain ⟨user, request', hinserted⟩ := insertUser_some hinsert
              have hhoused := housed_inserted hinserted
              exact ⟨command.payload, user, _, h.started tx command id statement htx,
                hinserted.varchar_key, hinserted.varchar_key,
                madeFrom_of_stored hinserted.storedUser,
                hresult ▸ shows_newUser hinserted.storedUser, hknown _ hhoused.row,
                .inl hhoused⟩

end Accounts

end Modularis.Identity.Owners
