import Modularis.Foundation.StepSystem
import Modularis.Identity.Service

namespace Modularis.Identity.Redelivery

open Modularis.Foundation
open Modularis.Foundation.Column
open Modularis.Shared.Uuid
open Modularis.Identity.Database
open Modularis.Identity.Service

/-- `drawn` are the user ids that have been drawn so far. -/
structure World where
  db : IdentityDatabase
  drawn : List UUID
  drawn_of_user : ∀ id, (db.users.row id).isSome → id ∈ drawn

/-- A delivered command, with the id that it would give to a user. -/
inductive Command where
  | createUser (command : UserCreateCommandMessage) (randomUUID : UUID)
  | compensateUser (command : UserCompensationCommandMessage)

/-- What either command is answered with. -/
inductive Answer where
  | created (answer : Except RpcErrorPayload UserCreateCommandResult)
  | compensated (answer : Except RpcErrorPayload CompensationCommandResult)

/-- The answer to a command on a database. -/
def answer (db : IdentityDatabase) : Command → Answer
  | .createUser command randomUUID =>
      .created (createUser db command randomUUID).1
  | .compensateUser command => .compensated (compensateUser db command).1

/-- The answer is not an error. -/
def Answer.success : Answer → Bool
  | .created (.ok _) | .compensated (.ok _) => true
  | _ => false

/-- Both commands succeeded with the same result, the replayed flag aside. -/
def SameSuccess : Answer → Answer → Prop
  | .created (.ok result), .created (.ok result') => result.user = result'.user
  | .compensated (.ok result), .compensated (.ok result') =>
      result.compensated = result'.compensated
  | _, _ => False

/-- The same command message, delivered again. -/
def SameCommand : Command → Command → Prop
  | .createUser command _, .createUser command' _ => command = command'
  | .compensateUser command, .compensateUser command' => command = command'
  | _, _ => False

section Users

variable {db db' : IdentityDatabase}

theorem users_of_createUser {command : UserCreateCommandMessage}
    {randomUUID id : UUID}
    (h : ((createUser db command randomUUID).2.users.row id).isSome) :
    id = randomUUID ∨ (db.users.row id).isSome := by
  rcases createUser_db db command randomUUID with hsame | hinsert
  · exact .inr (hsame ▸ h)
  · obtain ⟨_, _, hinserted⟩ := insertUser_some hinsert
    obtain ⟨user, huser⟩ := Option.isSome_iff_exists.mp h
    rcases hinserted.row_user_iff.mp huser with ⟨hid, _⟩ | hold
    · exact .inl hid
    · exact .inr (Option.isSome_iff_exists.mpr ⟨user, hold⟩)

theorem users_of_compensateUser {command : UserCompensationCommandMessage}
    {id : UUID} (h : ((compensateUser db command).2.users.row id).isSome) :
    (db.users.row id).isSome := by
  rcases compensateUser_db db command with hsame | ⟨userId, _, hcompensate⟩
  · exact hsame ▸ h
  · rw [row_users_compensate hcompensate] at h
    split at h
    · cases h
    · exact h

end Users

/-- A command runs; the user id that a creation draws is a new one. -/
def step (σ : World) : Command → Option World
  | .createUser command randomUUID =>
      if randomUUID ∈ σ.drawn then none
      else
        some
          { db := (createUser σ.db command randomUUID).2
            drawn := randomUUID :: σ.drawn
            drawn_of_user := by
              intro id hid
              rcases users_of_createUser hid with rfl | hold
              · exact List.mem_cons_self
              · exact List.mem_cons_of_mem _ (σ.drawn_of_user id hold) }
  | .compensateUser command =>
      some
        { db := (compensateUser σ.db command).2
          drawn := σ.drawn
          drawn_of_user := fun id hid =>
            σ.drawn_of_user id (users_of_compensateUser hid) }

/-- Nothing was delivered yet. -/
def World.init : World where
  db := IdentityDatabase.empty
  drawn := []
  drawn_of_user := by
    intro id hid
    cases hid

abbrev Run := StepSystem.Run step

/-- A command deletes the user that the request under a key refers to. -/
def Undoes (key : String) (σ : World) : Command → Prop
  | .createUser _ _ => False
  | .compensateUser command => ∃ request,
      σ.db.onboardingRequests.row key = some request ∧
        Compensates σ.db command request.userId

/-- No column cuts what a redelivery compares or what the first answer shows. -/
structure StoredInFull (payload : UserCreateCommandPayload) : Prop where
  idempotencyKey : payload.idempotencyKey.length ≤ 128
  requestHash : payload.requestHash.length ≤ 128
  email : payload.email.length ≤ 255
  name : payload.name.length ≤ 120

/-- What keeps the answer of a command that succeeds in `σ` valid over the commands after
it.  Of a creation: it found its request or is stored in full, and its user is not
compensated.  Of a compensation: its key is stored in full, and its user id is written as
`toString` writes it. -/
def Kept (σ : World) (trace : List (World × Command)) : Command → Prop
  | .createUser command _ =>
      (σ.db.onboardingRequests.row command.payload.idempotencyKey = none →
        StoredInFull command.payload) ∧
      ∀ p ∈ trace, ¬ Undoes command.payload.idempotencyKey p.1 p.2
  | .compensateUser command =>
      command.payload.idempotencyKey.length ≤ 128 ∧ Canonical command.payload.userId

/-- The second delivery creates and deletes nothing and is answered like the
first. -/
structure Tolerated (σ : World) (m : Command) (τ : World) (m' : Command)
    (τ' : World) : Prop where
  users : τ'.db.users = τ.db.users
  requests : τ'.db.onboardingRequests = τ.db.onboardingRequests
  answer : SameSuccess (answer σ.db m) (answer τ.db m')

section Records

variable {db : IdentityDatabase} {σ σ' τ : World} {e : Command}
  {key : String} {request : OnboardingRequestEntity} {user : UserEntity}
  {receipt : UserCompensationReceiptEntity}

/-- The request of a creation is stored together with its user. -/
def Recorded (db : IdentityDatabase) (key : String)
    (request : OnboardingRequestEntity) (user : UserEntity) : Prop :=
  db.onboardingRequests.row key = some request ∧
    db.users.row request.userId = some user

theorem recorded_createUser (h : Recorded db key request user)
    (command : UserCreateCommandMessage) (randomUUID : UUID) :
    Recorded (createUser db command randomUUID).2 key request user := by
  rcases createUser_db db command randomUUID with hsame | hinsert
  · exact hsame.symm ▸ h
  · obtain ⟨_, _, hinserted⟩ := insertUser_some hinsert
    exact ⟨hinserted.row_request_iff.mpr (.inr h.1), hinserted.row_user_iff.mpr (.inr h.2)⟩

theorem recorded_compensateUser (h : Recorded db key request user)
    {command : UserCompensationCommandMessage}
    (hkept : ¬ Compensates db command request.userId) :
    Recorded (compensateUser db command).2 key request user := by
  rcases compensateUser_db db command with hsame | ⟨userId, hcompensates, hcompensate⟩
  · exact hsame.symm ▸ h
  · have hother : request.userId ≠ userId := by
      rintro rfl
      exact hkept hcompensates
    refine ⟨row_requests_compensate hcompensate h.1 hother, ?_⟩
    rw [row_users_compensate hcompensate]
    exact (if_neg hother).trans h.2

theorem recorded_step (h : Recorded σ.db key request user)
    (hkept : ¬ Undoes key σ e) (hstep : step σ e = some σ') :
    Recorded σ'.db key request user := by
  cases e with
  | createUser command randomUUID =>
      obtain ⟨_, hσ⟩ := Option.ite_none_left_eq_some.mp hstep
      obtain rfl := Option.some.inj hσ
      exact recorded_createUser h command randomUUID
  | compensateUser command =>
      obtain rfl := Option.some.inj hstep
      exact recorded_compensateUser h
        fun hcompensates => hkept ⟨request, h.1, hcompensates⟩

theorem recorded_run {trace : List (World × Command)} (hrun : Run σ trace τ)
    (h : Recorded σ.db key request user)
    (hkept : ∀ p ∈ trace, ¬ Undoes key p.1 p.2) :
    Recorded τ.db key request user :=
  hrun.invariant (I := fun σ => Recorded σ.db key request user)
    (fun σ e => ¬ Undoes key σ e) h
    (fun _ _ _ h hkept hstep => recorded_step h hkept hstep) hkept

/-- The user had been created and is there no more. -/
def Gone (id : UUID) (σ : World) : Prop :=
  id ∈ σ.drawn ∧ σ.db.users.row id = none

theorem gone_step {id : UUID} (h : Gone id σ) (hstep : step σ e = some σ') :
    Gone id σ' := by
  obtain ⟨hdrawn, hgone⟩ := h
  cases e with
  | createUser command randomUUID =>
      obtain ⟨hnew, hσ⟩ := Option.ite_none_left_eq_some.mp hstep
      obtain rfl := Option.some.inj hσ
      refine ⟨List.mem_cons_of_mem _ hdrawn, ?_⟩
      rw [← Option.not_isSome_iff_eq_none]
      intro hsome
      rcases users_of_createUser hsome with rfl | hold
      · exact hnew hdrawn
      · simp [hgone] at hold
  | compensateUser command =>
      obtain rfl := Option.some.inj hstep
      refine ⟨hdrawn, ?_⟩
      rw [← Option.not_isSome_iff_eq_none]
      intro hsome
      simpa [hgone] using users_of_compensateUser hsome

theorem gone_of_undoes (h : Recorded σ.db key request user)
    (hundoes : Undoes key σ e) (hstep : step σ e = some σ') :
    Gone request.userId σ' := by
  cases e with
  | createUser command randomUUID => exact absurd hundoes id
  | compensateUser command =>
      obtain ⟨found, hfound, hcompensates⟩ := hundoes
      obtain rfl := Option.some.inj (h.1.symm.trans hfound)
      obtain rfl := Option.some.inj hstep
      obtain ⟨db', hresult, hcompensate⟩ :=
        compensateUser_of_compensates σ.db hcompensates
      refine ⟨σ.drawn_of_user _ (Option.isSome_iff_exists.mpr ⟨user, h.2⟩), ?_⟩
      simp only [hresult]
      rw [row_users_compensate hcompensate]
      exact if_pos rfl

theorem gone_of_run {trace : List (World × Command)} (hrun : Run σ trace τ)
    (h : Recorded σ.db key request user)
    (hundone : ∃ p ∈ trace, Undoes key p.1 p.2) : Gone request.userId τ := by
  induction hrun with
  | nil => simp at hundone
  | @snoc trace ρ τ e hbefore hstep ih =>
      by_cases hearlier : ∃ p ∈ trace, Undoes key p.1 p.2
      · exact gone_step (ih hearlier) hstep
      · have hrecorded := recorded_run hbefore h
          fun p hp hundoes => hearlier ⟨p, hp, hundoes⟩
        obtain ⟨p, hp, hundoes⟩ := hundone
        rcases List.mem_append.mp hp with hp | hp
        · exact absurd ⟨p, hp, hundoes⟩ hearlier
        · obtain rfl := List.mem_singleton.mp hp
          exact gone_of_undoes hrecorded hundoes hstep

theorem receipt_createUser
    (h : db.userCompensationReceipts.row key = some receipt)
    (command : UserCreateCommandMessage) (randomUUID : UUID) :
    (createUser db command randomUUID).2.userCompensationReceipts.row key =
      some receipt := by
  rcases createUser_db db command randomUUID with hsame | hinsert
  · exact hsame.symm ▸ h
  · obtain ⟨_, _, hinserted⟩ := insertUser_some hinsert
    simpa only [hinserted.receipts] using h

theorem receipt_compensateUser
    (h : db.userCompensationReceipts.row key = some receipt)
    (command : UserCompensationCommandMessage) :
    (compensateUser db command).2.userCompensationReceipts.row key =
      some receipt := by
  rcases compensateUser_db db command with hsame | ⟨userId, _, hcompensate⟩
  · exact hsame.symm ▸ h
  · obtain ⟨_, hremoved⟩ := compensate_some hcompensate
    simp only [hremoved.receipts]
    exact Table.row_insertIfAbsent_of_row _ h

theorem receipt_run {trace : List (World × Command)} (hrun : Run σ trace τ)
    (h : σ.db.userCompensationReceipts.row key = some receipt) :
    τ.db.userCompensationReceipts.row key = some receipt := by
  refine hrun.invariant
    (I := fun σ => σ.db.userCompensationReceipts.row key = some receipt)
    (fun _ _ => True) h ?_ fun _ _ => trivial
  intro σ e σ' h _ hstep
  cases e with
  | createUser command randomUUID =>
      obtain ⟨_, hσ⟩ := Option.ite_none_left_eq_some.mp hstep
      obtain rfl := Option.some.inj hσ
      exact receipt_createUser h command randomUUID
  | compensateUser command =>
      obtain rfl := Option.some.inj hstep
      exact receipt_compensateUser h command

end Records

section Redeliveries

variable {db : IdentityDatabase} {σ σ₁ τ τ' : World}
  {trace : List (World × Command)}

/-- A creation that succeeds leaves its request and its user under its key, if no column
has cut them. -/
theorem recorded_of_created {command : UserCreateCommandMessage}
    {randomUUID : UUID} {result : UserCreateCommandResult}
    {db' : IdentityDatabase}
    (h : createUser db command randomUUID = (.ok result, db'))
    (hfull : db.onboardingRequests.row command.payload.idempotencyKey = none →
      StoredInFull command.payload) :
    ∃ request user, Recorded db' command.payload.idempotencyKey request user ∧
      request.requestHash = command.payload.requestHash ∧
      result.user = toPayload user := by
  rcases createUser_ok db h with
    ⟨request, user, hrow, hhash, huser, hresult, rfl⟩ | ⟨hnew, hinsert, hresult⟩
  · exact ⟨request, user, ⟨hrow, huser⟩, hhash, hresult⟩
  · obtain ⟨user, request, hinserted⟩ := insertUser_some hinsert
    obtain ⟨hid, hemail, hname, _, _, hpremium⟩ :=
      UserEntity.stored_eq_some_iff.mp hinserted.storedUser
    obtain ⟨hkey, hhash, _, howner⟩ :=
      OnboardingRequestEntity.stored_eq_some_iff.mp hinserted.storedRequest
    obtain ⟨hkeyLength, hhashLength, hemailLength, hnameLength⟩ := hfull hnew
    refine ⟨request, user, ⟨?_, ?_⟩, eq_of_length_le hhashLength hhash, ?_⟩
    · exact hinserted.row_request_iff.mpr (.inl ⟨(eq_of_length_le hkeyLength hkey).symm, rfl⟩)
    · exact hinserted.row_user_iff.mpr (.inl ⟨howner, rfl⟩)
    · rw [hresult]
      simp only [toPayload, hid, hpremium, eq_of_length_le hemailLength hemail,
        eq_of_length_le hnameLength hname]
      rfl

theorem tolerated_createUser {command : UserCreateCommandMessage}
    {randomUUID randomUUID' : UUID} {request : OnboardingRequestEntity}
    {user : UserEntity} {result : UserCreateCommandResult}
    (hrecorded : Recorded τ.db command.payload.idempotencyKey request user)
    (hhash : request.requestHash = command.payload.requestHash)
    (hresult : (createUser σ.db command randomUUID).1 = .ok result)
    (huser : result.user = toPayload user)
    (hagain : step τ (.createUser command randomUUID') = some τ') :
    Tolerated σ (.createUser command randomUUID) τ
      (.createUser command randomUUID') τ' := by
  have hreplay := createUser_replay τ.db randomUUID' hrecorded.1 hhash
    hrecorded.2
  obtain ⟨_, hτ⟩ := Option.ite_none_left_eq_some.mp hagain
  obtain rfl := Option.some.inj hτ
  refine ⟨by simp only [hreplay], by simp only [hreplay], ?_⟩
  simp only [Redelivery.answer, hreplay, hresult]
  exact huser

/-- A creation that is tolerated again finds its request and the user that it was answered
with. -/
theorem recorded_of_tolerated {command : UserCreateCommandMessage}
    {randomUUID randomUUID' : UUID} {result : UserCreateCommandResult}
    (hresult : (createUser σ.db command randomUUID).1 = .ok result)
    (hagain : step τ (.createUser command randomUUID') = some τ')
    (htolerated : Tolerated σ (.createUser command randomUUID) τ
      (.createUser command randomUUID') τ') :
    ∃ request user, Recorded τ.db command.payload.idempotencyKey request user ∧
      request.requestHash = command.payload.requestHash ∧
      result.user = toPayload user := by
  obtain ⟨husers, _, hanswer⟩ := htolerated
  obtain ⟨_, hτ⟩ := Option.ite_none_left_eq_some.mp hagain
  obtain rfl := Option.some.inj hτ
  simp only [Redelivery.answer, hresult] at hanswer
  cases hagain' : createUser τ.db command randomUUID' with
  | mk again db' =>
      cases again with
      | error error => simp [hagain', SameSuccess] at hanswer
      | ok again =>
          simp only [hagain', SameSuccess] at hanswer husers
          rcases createUser_ok τ.db hagain' with
            ⟨request, user, hrow, hhash, huser, hpayload, _⟩ | ⟨_, hinsert, _⟩
          · exact ⟨request, user, ⟨hrow, huser⟩, hhash, hanswer.trans hpayload⟩
          · obtain ⟨user, _, hinserted⟩ := insertUser_some hinsert
            have hrow : db'.users.row (newUser command randomUUID').id = some user :=
              hinserted.row_user_iff.mpr (.inl ⟨rfl, rfl⟩)
            rw [husers, hinserted.free_id] at hrow
            cases hrow

theorem not_gone_of_recorded {key : String} {request : OnboardingRequestEntity}
    {user owner : UserEntity} (hrecorded : Recorded τ.db key request user)
    (hshown : toPayload owner = toPayload user) : ¬ Gone owner.id τ := by
  rintro ⟨_, hgone⟩
  have hid : owner.id = user.id := toString_injective (congrArg UserPayload.id hshown)
  have hkey := τ.db.users.key_row _ _ hrecorded.2
  rw [hid, hkey, hrecorded.2] at hgone
  cases hgone

theorem storedInFull_of_recorded {command : UserCreateCommandMessage} {randomUUID : UUID}
    {request : OnboardingRequestEntity} {user : UserEntity}
    (hrecorded : Recorded τ.db command.payload.idempotencyKey request user)
    (hhash : request.requestHash = command.payload.requestHash)
    (hshown : toPayload (newUser command randomUUID) = toPayload user) :
    StoredInFull command.payload := by
  obtain ⟨hkey, hkept, _⟩ := OnboardingRequestEntity.stored_eq_some_iff.mp
    (τ.db.stored_requests request (Table.mem_rows_of_row hrecorded.1))
  rw [τ.db.onboardingRequests.key_row _ request hrecorded.1] at hkey
  rw [hhash] at hkept
  obtain ⟨_, hemail, hname, _⟩ := UserEntity.stored_eq_some_iff.mp
    (τ.db.stored_users user (Table.mem_rows_of_row hrecorded.2))
  have hsameEmail : command.payload.email = user.email := congrArg UserPayload.email hshown
  have hsameName : command.payload.name = user.name := congrArg UserPayload.name hshown
  exact ⟨length_of_varchar hkey, length_of_varchar hkept,
    hsameEmail ▸ length_of_varchar hemail, hsameName ▸ length_of_varchar hname⟩

theorem receipt_of_compensated {command : UserCompensationCommandMessage}
    {result : CompensationCommandResult} {db' : IdentityDatabase}
    (h : compensateUser db command = (.ok result, db')) :
    ∃ receipt, db'.userCompensationReceipts.row receipt.idempotencyKey = some receipt ∧
      varchar 128 command.payload.idempotencyKey = some receipt.idempotencyKey ∧
      (receipt.userId.toString = command.payload.userId ↔
        Canonical command.payload.userId) := by
  rcases (compensateUser_ok db h).2 with
    ⟨receipt, hrow, htarget, rfl⟩ | ⟨userId, hcompensates, hcompensate⟩
  · have hstored := UserCompensationReceiptEntity.stored_eq_some_iff.mp
      (db'.stored_receipts receipt (Table.mem_rows_of_row hrow))
    have hkey := db'.userCompensationReceipts.key_row _ receipt hrow
    refine ⟨receipt, hkey.symm ▸ hrow, ?_, fun _ => ⟨_, htarget⟩, fun _ => htarget⟩
    rw [← hkey]
    exact hstored.1
  · obtain ⟨receipt, hremoved⟩ := compensate_some hcompensate
    obtain ⟨hkey, _, hid⟩ :=
      UserCompensationReceiptEntity.stored_eq_some_iff.mp hremoved.stored
    refine ⟨receipt, ?_, hkey, fun htarget => ⟨_, htarget⟩, fun hcanonical => ?_⟩
    · rw [hremoved.receipts]
      exact (Table.row_insertIfAbsent_iff hremoved.key).mpr (.inl ⟨rfl, rfl⟩)
    · rw [hid]
      exact toString_of_canonical hcanonical hcompensates.target

/-- A compensation succeeds again only if it finds its receipt: one whose key was cut is
not found, and in the way of another. -/
theorem tolerated_compensateUser_iff {command : UserCompensationCommandMessage}
    {receipt : UserCompensationReceiptEntity} {result : CompensationCommandResult}
    (hrow : τ.db.userCompensationReceipts.row receipt.idempotencyKey = some receipt)
    (hcut : varchar 128 command.payload.idempotencyKey = some receipt.idempotencyKey)
    (hresult : (compensateUser σ.db command).1 = .ok result)
    (hcompensated : result.compensated = true)
    (hagain : step τ (.compensateUser command) = some τ') :
    Tolerated σ (.compensateUser command) τ (.compensateUser command) τ' ↔
      receipt.idempotencyKey = command.payload.idempotencyKey ∧
        receipt.userId.toString = command.payload.userId := by
  obtain rfl := Option.some.inj hagain
  constructor
  · rintro ⟨_, _, hanswer⟩
    simp only [Redelivery.answer, hresult] at hanswer
    cases hagain' : compensateUser τ.db command with
    | mk again db' =>
        cases again with
        | error error => simp [hagain', SameSuccess] at hanswer
        | ok again =>
            rcases (compensateUser_ok τ.db hagain').2 with
              ⟨found, hfound, htarget, _⟩ | ⟨userId, _, hcompensate⟩
            · have hstored := UserCompensationReceiptEntity.stored_eq_some_iff.mp
                (τ.db.stored_receipts found (Table.mem_rows_of_row hfound))
              rw [τ.db.userCompensationReceipts.key_row _ found hfound, hcut] at hstored
              have hkey := Option.some.inj hstored.1
              rw [← hkey, hrow] at hfound
              exact ⟨hkey, Option.some.inj hfound ▸ htarget⟩
            · obtain ⟨again, hremoved⟩ := compensate_some hcompensate
              have hkey := (UserCompensationReceiptEntity.stored_eq_some_iff.mp
                hremoved.stored).1
              have hfree := hremoved.key
              rw [← Option.some.inj (hcut.symm.trans hkey), hrow] at hfree
              cases hfree
  · rintro ⟨hkey, htarget⟩
    rw [hkey] at hrow
    have hreplay : compensateUser τ.db command =
        (.ok { compensated := true, replayed := true }, τ.db) := by
      simp [compensateUser, isText_of_receipt τ.db hrow, hrow, htarget]
    refine ⟨by simp only [hreplay], by simp only [hreplay], ?_⟩
    simp only [Redelivery.answer, hreplay, hresult]
    exact hcompensated

/-- A command that succeeded is tolerated at a later point if and only if no column has cut
what it stored and no compensation has undone it in between, or, where it is a compensation
itself, its key was not cut and its user id is written as `toString` writes it. -/
theorem tolerated_iff {m m' : Command} (hm : step σ m = some σ₁)
    (hsuccess : (answer σ.db m).success = true) (hlater : Run σ₁ trace τ)
    (hsame : SameCommand m m') (hagain : step τ m' = some τ') :
    Tolerated σ m τ m' τ' ↔ Kept σ trace m := by
  cases m with
  | createUser command randomUUID =>
      cases m' with
      | compensateUser => exact absurd hsame id
      | createUser command' randomUUID' =>
          obtain rfl : command = command' := hsame
          obtain ⟨_, hσ⟩ := Option.ite_none_left_eq_some.mp hm
          obtain rfl := Option.some.inj hσ
          cases hfirst : createUser σ.db command randomUUID with
          | mk first db' =>
              cases first with
              | error error => simp [answer, hfirst, Answer.success] at hsuccess
              | ok result =>
                  have hresult := congrArg Prod.fst hfirst
                  have hdb : (createUser σ.db command randomUUID).2 = db' :=
                    congrArg Prod.snd hfirst
                  constructor
                  · intro htolerated
                    obtain ⟨request, user, hrecorded, hhash, hshown⟩ :=
                      recorded_of_tolerated hresult hagain htolerated
                    have hfull : σ.db.onboardingRequests.row
                        command.payload.idempotencyKey = none →
                        StoredInFull command.payload := by
                      intro hnew
                      rcases createUser_ok σ.db hfirst with
                        ⟨_, _, hrow, _⟩ | ⟨_, _, hfresh⟩
                      · cases hnew.symm.trans hrow
                      · exact storedInFull_of_recorded hrecorded hhash
                          (hfresh.symm.trans hshown)
                    refine ⟨hfull, fun p hp hundoes => ?_⟩
                    obtain ⟨stored, owner, hstored, _, howner⟩ :=
                      recorded_of_created hfirst hfull
                    have hid : owner.id = stored.userId := db'.users.key_row _ _ hstored.2
                    rw [← hdb] at hstored
                    have hgone := gone_of_run hlater hstored ⟨p, hp, hundoes⟩
                    exact not_gone_of_recorded hrecorded (howner.symm.trans hshown)
                      (hid ▸ hgone)
                  · rintro ⟨hfull, hkept⟩
                    obtain ⟨request, user, hrecorded, hhash, huser⟩ :=
                      recorded_of_created hfirst hfull
                    rw [← hdb] at hrecorded
                    exact tolerated_createUser
                      (recorded_run hlater hrecorded hkept) hhash hresult huser
                      hagain
  | compensateUser command =>
      cases m' with
      | createUser => exact absurd hsame id
      | compensateUser command' =>
          obtain rfl : command = command' := hsame
          obtain rfl := Option.some.inj hm
          cases hfirst : compensateUser σ.db command with
          | mk first db' =>
              cases first with
              | error error => simp [answer, hfirst, Answer.success] at hsuccess
              | ok result =>
                  obtain ⟨receipt, hrow, hcut, hcanonical⟩ :=
                    receipt_of_compensated hfirst
                  rw [← show (compensateUser σ.db command).2 = db' from
                    congrArg Prod.snd hfirst] at hrow
                  have hfull : receipt.idempotencyKey = command.payload.idempotencyKey ↔
                      command.payload.idempotencyKey.length ≤ 128 :=
                    ⟨fun hkey => hkey ▸ length_of_varchar hcut,
                      fun hlength => eq_of_length_le hlength hcut⟩
                  exact (tolerated_compensateUser_iff (receipt_run hlater hrow) hcut
                    (congrArg Prod.fst hfirst) (compensateUser_ok σ.db hfirst).1
                    hagain).trans (and_congr hfull hcanonical)

end Redeliveries

def sampleId (d : Fin 16) : UUID := .ofDigit d

def sampleCreate : UserCreateCommandMessage where
  correlationId := "correlation-1"
  payload :=
    { idempotencyKey := "user:key-1"
      requestHash := "hash-1"
      email := "ada@example.com"
      name := "Ada"
      cellphone := "11999990000"
      taxId := "12345678901" }

def sampleCompensation : UserCompensationCommandMessage where
  correlationId := "correlation-1"
  payload :=
    { idempotencyKey := "compensate:user:key-1"
      userId := (sampleId 1).toString
      reason := "payment step failed before the onboarding saga could complete" }

/-- Another user is created and compensated between the two deliveries. -/
def sampleLater : List Command :=
  [.createUser
      { correlationId := "correlation-2"
        payload :=
          { idempotencyKey := "user:key-2"
            requestHash := "hash-2"
            email := "grace@example.com"
            name := "Grace"
            cellphone := "11999990001"
            taxId := "12345678902" } } (sampleId 2),
    .compensateUser
      { correlationId := "correlation-2"
        payload :=
          { idempotencyKey := "compensate:user:key-2"
            userId := (sampleId 2).toString
            reason := "payment step failed before the onboarding saga could complete" } }]

theorem tolerated_iff_sample :
    ∃ σ₁ trace τ τ', step World.init (.createUser sampleCreate (sampleId 1)) = some σ₁ ∧
      Run σ₁ trace τ ∧ trace.length = 2 ∧
      step τ (.createUser sampleCreate (sampleId 3)) = some τ' ∧
      Tolerated World.init (.createUser sampleCreate (sampleId 1)) τ
        (.createUser sampleCreate (sampleId 3)) τ' ∧
      Kept World.init trace (.createUser sampleCreate (sampleId 1)) := by
  obtain ⟨σ₁, hσ₁⟩ : ∃ σ₁, step World.init (.createUser sampleCreate (sampleId 1)) =
    some σ₁ := ⟨_, rfl⟩
  obtain ⟨τ, hτ⟩ : ∃ τ, StepSystem.replay step σ₁ sampleLater = some τ := by
    obtain rfl := Option.some.inj hσ₁
    exact ⟨_, rfl⟩
  obtain ⟨τ', hτ'⟩ : ∃ τ', step τ (.createUser sampleCreate (sampleId 3)) = some τ' := by
    obtain rfl := Option.some.inj hσ₁
    obtain rfl := Option.some.inj hτ
    exact ⟨_, rfl⟩
  have hrun : Run σ₁ (StepSystem.traceOf step σ₁ sampleLater) τ := StepSystem.run_of_replay hτ
  have htolerated : Tolerated World.init (.createUser sampleCreate (sampleId 1)) τ
      (.createUser sampleCreate (sampleId 3)) τ' := by
    obtain rfl := Option.some.inj hσ₁
    obtain rfl := Option.some.inj hτ
    obtain rfl := Option.some.inj hτ'
    exact ⟨rfl, rfl, rfl⟩
  refine ⟨σ₁, _, τ, τ', hσ₁, hrun, ?_, hτ', htolerated, ?_⟩
  · obtain rfl := Option.some.inj hσ₁
    rfl
  · have hsame : SameCommand (.createUser sampleCreate (sampleId 1))
        (.createUser sampleCreate (sampleId 3)) := rfl
    exact (tolerated_iff hσ₁ rfl hrun hsame hτ').mp htolerated

/-- A creation that is delivered again after its user was compensated creates a
second user. -/
theorem orphaned_by_redelivery :
    ∃ σ₁ τ τ', step World.init (.createUser sampleCreate (sampleId 1)) =
        some σ₁ ∧
      (answer World.init.db
        (.createUser sampleCreate (sampleId 1))).success = true ∧
      step σ₁ (.compensateUser sampleCompensation) = some τ ∧
      step τ (.createUser sampleCreate (sampleId 2)) = some τ' ∧
      τ.db.users.row (sampleId 2) = none ∧
      (τ'.db.users.row (sampleId 2)).isSome ∧
      ¬ Tolerated World.init (.createUser sampleCreate (sampleId 1)) τ
        (.createUser sampleCreate (sampleId 2)) τ' := by
  refine ⟨_, _, _, rfl, rfl, rfl, rfl, ?_, ?_, ?_⟩
  · decide
  · decide
  · rintro ⟨husers, _, _⟩
    have hrow := congrArg (fun t => (t.row (sampleId 2)).isSome) husers
    revert hrow
    decide

end Modularis.Identity.Redelivery
