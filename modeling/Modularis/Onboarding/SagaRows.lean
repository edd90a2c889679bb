import Modularis.Onboarding.UpdateText

namespace Modularis.Onboarding.SagaRows

open Modularis.Foundation.SqlUpdate
open Modularis.Onboarding.Contracts
open Modularis.Onboarding.Repository
open Modularis.Onboarding.UpdateText
open Modularis.Shared.RabbitBus (Json)

section Rows

/-- How payloads are presented as JSON. -/
structure Presentation where
  numberText : Rat → Numeral
  request : OnboardingAccountCreateCommandPayload → Json
  user : UserPayload → Json
  payment : PublicPaymentIntentPayload → Json
  response : CreateAccountResponse → Json
  problem : ProblemSnapshot → Json

variable (json : Presentation) (convert : String → Value → Option Value)

/-- A snapshot, as the text that its column is given. -/
def jsonText (value : Json) : Value := .text (stringify json.numberText value)

/-- The columns of a saga with what they are given. -/
def sagaCells (saga : AccountCreationSaga) : List (String × Option Value) :=
  [("idempotency_key", some (.text saga.idempotencyKey)),
    ("request_hash", some (.text saga.requestHash)),
    ("request_payload_json", some (jsonText json (json.request saga.requestPayload))),
    ("root_correlation_id", some (.text saga.rootCorrelationId)),
    ("status", some (.text (statusText saga.status))),
    ("next_action", some (.text (nextActionText saga.nextAction))),
    ("user_payload_json", saga.userPayload.map fun user => jsonText json (json.user user)),
    ("payment_payload_json",
      saga.paymentPayload.map fun payment => jsonText json (json.payment payment)),
    ("response_json",
      saga.response.map fun response => jsonText json (json.response response)),
    ("error_json", saga.error.map fun error => jsonText json (json.problem error)),
    ("retryable", some (.boolean saga.retryable)),
    ("attempts", some (.integer saga.attempts)),
    ("last_error_at", saga.lastErrorAt.map Value.timestamp),
    ("next_retry_at", saga.nextRetryAt.map Value.timestamp),
    ("locked_by", saga.lockedBy.map Value.text),
    ("locked_until", saga.lockedUntil.map Value.timestamp),
    ("created_at", some (.timestamp saga.createdAt)),
    ("updated_at", some (.timestamp saga.updatedAt))]

/-- The row of a saga. -/
def sagaRow (saga : AccountCreationSaga) : Row := fun column =>
  ((sagaCells json saga).lookup column).join.bind (convert column)

/-- The columns can hold the saga. -/
def Storable (saga : AccountCreationSaga) : Prop :=
  ∀ column value, (sagaCells json saga).lookup column = some (some value) →
    (convert column value).isSome = true

/-- What is relied on of the column types: a text column keeps a text, the counter keeps a
number, and a time is read from its ISO text. -/
structure ColumnTypes : Prop where
  idempotencyKey : ∀ text, convert "idempotency_key" (.text text) = some (.text text)
  lockedBy : ∀ text, convert "locked_by" (.text text) = some (.text text)
  attempts : ∀ n stored, convert "attempts" (.integer n) = some stored → stored = .integer n
  nextRetryAt : ∀ time : Int, time.natAbs ≤ 8640000000000000 →
    convert "next_retry_at" (.text (toISOString time)) =
      convert "next_retry_at" (.timestamp time)

/-- Dates that are kept as their ISO texts are of this kind. -/
example : ColumnTypes fun column value =>
    match column, value with
    | "next_retry_at", .timestamp time => some (.text (toISOString time))
    | _, value => some value where
  idempotencyKey _ := rfl
  lockedBy _ := rfl
  attempts _ _ hstored := (Option.some.inj hstored).symm
  nextRetryAt _ _ := rfl

/-- A call of one of the five functions with its typed payload. -/
inductive SagaMark where
  | userCreated (userPayload : UserPayload)
  | paymentCreated (paymentPayload : PublicPaymentIntentPayload)
  | completed (response : CreateAccountResponse)
  | failed (error : ProblemSnapshot) (retryable : Bool) (nextAction : SagaNextAction)
      (nextRetryAt : Option Int)
  | compensated (error : ProblemSnapshot)

/-- The mark of the texts that a mark of the saga is. -/
def SagaMark.mark : SagaMark → Mark
  | .userCreated userPayload => .userCreated (json.user userPayload)
  | .paymentCreated paymentPayload => .paymentCreated (json.payment paymentPayload)
  | .completed response => .completed (json.response response)
  | .failed error retryable nextAction nextRetryAt =>
      .failed (json.problem error) retryable nextAction nextRetryAt
  | .compensated error => .compensated (json.problem error)

/-- The columns of the saga that a mark sets. -/
def SagaMark.sagaUpdates : SagaMark → SagaUpdates
  | .userCreated userPayload => .userCreated userPayload
  | .paymentCreated paymentPayload => .paymentCreated paymentPayload
  | .completed response => .completed response
  | .failed error retryable nextAction nextRetryAt =>
      .failed error retryable nextAction nextRetryAt
  | .compensated error => .compensated error

/-- The date of a call is one that JavaScript has. -/
def SagaMark.HasDate : SagaMark → Prop
  | .failed _ _ _ nextRetryAt => ∀ time ∈ nextRetryAt, time.natAbs ≤ 8640000000000000
  | _ => True

/-- The saga after a call. -/
def SagaMark.apply (mark : SagaMark) (now : Int) (saga : AccountCreationSaga) :
    AccountCreationSaga :=
  mark.sagaUpdates.apply (mark.mark json).nextStatus now saga

/-- The saga is the one of the call and its worker has locked it. -/
def Owned (idempotencyKey workerId : String) (saga : AccountCreationSaga) : Prop :=
  saga.idempotencyKey = idempotencyKey ∧ saga.lockedBy = some workerId

instance (idempotencyKey workerId : String) (saga : AccountCreationSaga) :
    Decidable (Owned idempotencyKey workerId saga) :=
  inferInstanceAs (Decidable (_ ∧ _))

/-- What a call leaves of a saga of the table. -/
def SagaMark.step (mark : SagaMark) (idempotencyKey workerId : String) (now : Int)
    (saga : AccountCreationSaga) : AccountCreationSaga :=
  if Owned idempotencyKey workerId saga then mark.apply json now saga else saga

/-- The query of a call. -/
def SagaMark.query (mark : SagaMark) (idempotencyKey workerId : String) : Query :=
  transitionQuery idempotencyKey workerId (mark.mark json).nextStatus
    ((mark.mark json).updates json.numberText)

end Rows

section Refinement

variable {json : Presentation} {convert : String → Value → Option Value}
  {accepts : List Row → Bool} {now : Int}

theorem store_sagaRow {saga : AccountCreationSaga} (hstorable : Storable json convert saga)
    {column : String} {cell : Option Value}
    (hcell : (sagaCells json saga).lookup column = some cell) :
    (accountCreationSagas convert accepts).store column cell =
      some (sagaRow json convert saga column) := by
  rw [sagaRow, hcell]
  cases cell with
  | none => rfl
  | some value =>
      obtain ⟨stored, hstored⟩ := Option.isSome_iff_exists.mp (hstorable column value hcell)
      simp [Schema.store, accountCreationSagas, hstored]

theorem isLocked_sagaRow (htypes : ColumnTypes convert) (saga : AccountCreationSaga)
    (idempotencyKey workerId : String) :
    isLocked (accountCreationSagas convert accepts) idempotencyKey workerId
        (sagaRow json convert saga) =
      decide (Owned idempotencyKey workerId saga) := by
  have hkey : sagaRow json convert saga "idempotency_key" =
      some (.text saga.idempotencyKey) := htypes.idempotencyKey saga.idempotencyKey
  have howner : sagaRow json convert saga "locked_by" = saga.lockedBy.map Value.text := by
    change (saga.lockedBy.map Value.text).bind (convert "locked_by") = _
    cases saga.lockedBy with
    | none => rfl
    | some owner => exact htypes.lockedBy owner
  rw [isLocked, holds, holds, hkey, howner]
  simp only [accountCreationSagas, htypes.idempotencyKey, htypes.lockedBy]
  rw [Bool.eq_iff_iff, decide_eq_true_iff, Owned]
  cases saga.lockedBy <;> simp

/-- An entry of a map sets its column as it stands in the row of a saga, if it means what
the saga has there. -/
theorem entry_sagaRow {saga : AccountCreationSaga} (hstorable : Storable json convert saga)
    {row : Row} {column : String} {value : UpdateValue} {cell : Option Value}
    (hmeaning : value.meaning now row = some cell)
    (hcell : (sagaCells json saga).lookup column = some cell) :
    (value.meaning now row).bind ((accountCreationSagas convert accepts).store column) =
      some (sagaRow json convert saga column) := by
  rw [hmeaning, Option.bind_some]
  exact store_sagaRow hstorable hcell

theorem meaning_jsonText (row : Row) (value : Json) :
    (UpdateValue.text (stringify json.numberText value)).meaning now row =
      some (some (jsonText json value)) :=
  meaning_of_data (by simp [UpdateValue.data, stringify_not_trusted, jsonText]) row

theorem meaning_nextActionText (row : Row) (nextAction : SagaNextAction) :
    (UpdateValue.text (nextActionText nextAction)).meaning now row =
      some (some (.text (nextActionText nextAction))) :=
  meaning_of_data (by simp [UpdateValue.data, nextActionText_not_trusted]) row

theorem meaning_attempts (htypes : ColumnTypes convert) {saga : AccountCreationSaga}
    (hstorable : Storable json convert saga) :
    (UpdateValue.text "attempts + 1").meaning now (sagaRow json convert saga) =
      some (some (.integer (saga.attempts + 1 : Nat))) := by
  obtain ⟨stored, hstored⟩ := Option.isSome_iff_exists.mp (hstorable "attempts" _ rfl)
  have hattempts : sagaRow json convert saga "attempts" =
      some (.integer saga.attempts) := by
    change convert "attempts" (.integer saga.attempts) = _
    rw [hstored, htypes.attempts _ _ hstored]
  simp [UpdateValue.meaning, hattempts]

theorem nextRetryAt_sagaRow (htypes : ColumnTypes convert) {saga : AccountCreationSaga}
    (hstorable : Storable json convert saga) {row : Row} {nextRetryAt : Option Int}
    (hsaga : saga.nextRetryAt = nextRetryAt)
    (hdate : ∀ time ∈ nextRetryAt, time.natAbs ≤ 8640000000000000) :
    ((isoOrNull nextRetryAt).meaning now row).bind
        ((accountCreationSagas convert accepts).store "next_retry_at") =
      some (sagaRow json convert saga "next_retry_at") := by
  have hcell : (sagaCells json saga).lookup "next_retry_at" =
      some (nextRetryAt.map Value.timestamp) := by
    rw [← hsaga]
    rfl
  cases nextRetryAt with
  | none => exact entry_sagaRow hstorable rfl hcell
  | some time =>
      have hmeaning : (isoOrNull (some time)).meaning now row =
          some (some (.text (toISOString time))) :=
        meaning_of_data (by simp [isoOrNull, UpdateValue.data, toISOString_not_trusted]) row
      have hstore : (accountCreationSagas convert accepts).store "next_retry_at"
          (some (.timestamp time)) = some (sagaRow json convert saga "next_retry_at") :=
        store_sagaRow hstorable hcell
      rw [hmeaning, ← hstore]
      exact congrArg (Option.map some) (htypes.nextRetryAt time (hdate time rfl))

theorem sets_sagaRow (htypes : ColumnTypes convert) {mark : SagaMark} (hdate : mark.HasDate)
    {saga : AccountCreationSaga} (hstorable : Storable json convert saga)
    (hresult : Storable json convert (mark.apply json now saga)) :
    Sets (accountCreationSagas convert accepts) now (mark.mark json).nextStatus
      ((mark.mark json).updates json.numberText) (sagaRow json convert saga)
      (sagaRow json convert (mark.apply json now saga)) := by
  have hentry := @entry_sagaRow json convert accepts now _ hresult (sagaRow json convert saga)
  refine ⟨store_sagaRow hresult rfl, store_sagaRow hresult rfl, ?_, ?_⟩
  · cases mark with
    | userCreated userPayload =>
        simp only [SagaMark.mark, Mark.updates, Updates.userCreated, List.forall_mem_cons]
        exact ⟨hentry rfl rfl, hentry (meaning_jsonText _ _) rfl, hentry rfl rfl,
          hentry rfl rfl, hentry rfl rfl, hentry rfl rfl, by simp⟩
    | paymentCreated paymentPayload =>
        simp only [SagaMark.mark, Mark.updates, Updates.paymentCreated, List.forall_mem_cons]
        exact ⟨hentry rfl rfl, hentry (meaning_jsonText _ _) rfl, hentry rfl rfl,
          hentry rfl rfl, hentry rfl rfl, hentry rfl rfl, by simp⟩
    | completed response =>
        simp only [SagaMark.mark, Mark.updates, Updates.completed, List.forall_mem_cons]
        exact ⟨hentry rfl rfl, hentry (meaning_jsonText _ _) rfl, hentry rfl rfl,
          hentry rfl rfl, hentry rfl rfl, hentry rfl rfl, hentry rfl rfl, by simp⟩
    | failed error retryable nextAction nextRetryAt =>
        simp only [SagaMark.mark, Mark.updates, Updates.failed, List.forall_mem_cons]
        exact ⟨hentry (meaning_nextActionText _ _) rfl, hentry (meaning_jsonText _ _) rfl,
          hentry rfl rfl, hentry (meaning_attempts htypes hstorable) rfl, hentry rfl rfl,
          nextRetryAt_sagaRow htypes hresult rfl hdate, hentry rfl rfl, hentry rfl rfl,
          by simp⟩
    | compensated error =>
        simp only [SagaMark.mark, Mark.updates, Updates.compensated, List.forall_mem_cons]
        exact ⟨hentry rfl rfl, hentry (meaning_jsonText _ _) rfl, hentry rfl rfl,
          hentry (meaning_attempts htypes hstorable) rfl, hentry rfl rfl, hentry rfl rfl,
          hentry rfl rfl, hentry rfl rfl, by simp⟩
  · intro column hstatus hupdatedAt hcolumn
    have hcells : (sagaCells json (mark.apply json now saga)).lookup column =
        (sagaCells json saga).lookup column := by
      cases mark <;>
        simp only [SagaMark.mark, Mark.updates, Updates.userCreated, Updates.paymentCreated,
          Updates.completed, Updates.failed, Updates.compensated, List.map_cons, List.map_nil,
          List.mem_cons, List.not_mem_nil, or_false, not_or, ← ne_eq, ← beq_eq_false_iff_ne]
          at hstatus hupdatedAt hcolumn <;>
        simp only [sagaCells, List.lookup_cons, hstatus, hupdatedAt, hcolumn] <;>
        rfl
    rw [sagaRow, hcells, sagaRow]

theorem returned_sagaRows (mark : SagaMark) (htypes : ColumnTypes convert)
    (idempotencyKey workerId : String) (sagas : List AccountCreationSaga) :
    (((sagas.map (sagaRow json convert)).zip
        ((sagas.map (mark.step json idempotencyKey workerId now)).map
          (sagaRow json convert))).filter fun pair =>
      isLocked (accountCreationSagas convert accepts) idempotencyKey workerId pair.1).map
        Prod.snd =
      (sagas.filter fun saga => Owned idempotencyKey workerId saga).map fun saga =>
        sagaRow json convert (mark.apply json now saga) := by
  induction sagas with
  | nil => rfl
  | cons saga sagas ih =>
      rw [List.map_cons, List.map_cons, List.map_cons, List.zip_cons_cons, List.filter_cons,
        List.filter_cons, isLocked_sagaRow htypes]
      by_cases howned : Owned idempotencyKey workerId saga
      · have hstep : mark.step json idempotencyKey workerId now saga =
            mark.apply json now saga := if_pos howned
        rw [if_pos (decide_eq_true howned), if_pos (decide_eq_true howned), List.map_cons,
          List.map_cons, ih, hstep]
      · rw [if_neg (by simpa using howned), if_neg (by simpa using howned), ih]

/-- Run on the rows of sagas, the query of a call leaves the rows of the sagas after it and
returns those of its own. -/
theorem run_sagaRows (htypes : ColumnTypes convert) {mark : SagaMark} (hdate : mark.HasDate)
    (idempotencyKey workerId : String) {sagas : List AccountCreationSaga}
    (hstorable : ∀ saga ∈ sagas, Storable json convert saga ∧
      Storable json convert (mark.step json idempotencyKey workerId now saga))
    (haccepts : accepts ((sagas.map (mark.step json idempotencyKey workerId now)).map
      (sagaRow json convert)) = true) :
    (accountCreationSagas convert accepts).run now
        (mark.query json idempotencyKey workerId).values
        (mark.query json idempotencyKey workerId).text (sagas.map (sagaRow json convert)) =
      some ((sagas.map (mark.step json idempotencyKey workerId now)).map (sagaRow json convert),
        (sagas.filter fun saga => Owned idempotencyKey workerId saga).map fun saga =>
          sagaRow json convert (mark.apply json now saga)) := by
  have hcolumns := mem_columns_of_mark json.numberText (mark.mark json) convert accepts
  have hnames : ∀ entry ∈ (mark.mark json).updates json.numberText, IsName entry.1 :=
    fun entry hentry => isName_of_mem_columns convert accepts (hcolumns entry hentry)
  refine (run_transition hnames (nodup_of_mark json.numberText (mark.mark json)) convert accepts
    idempotencyKey workerId (mark.mark json).nextStatus _ _ _).mpr
      ⟨List.forall_mem_map.mpr hcolumns, ?_, haccepts, ?_⟩
  · rw [List.map_map, List.forall₂_map_left_iff, List.forall₂_map_right_iff,
      List.forall₂_same]
    intro saga hsaga
    obtain ⟨hbefore, hafter⟩ := hstorable saga hsaga
    rw [isLocked_sagaRow htypes, Function.comp_apply]
    by_cases howned : Owned idempotencyKey workerId saga
    · rw [if_pos (decide_eq_true howned)]
      rw [SagaMark.step, if_pos howned] at hafter ⊢
      exact sets_sagaRow htypes hdate hbefore hafter
    · rw [if_neg (by simpa using howned), SagaMark.step, if_neg howned]
  · exact (returned_sagaRows mark htypes idempotencyKey workerId sagas).symm

/-- The store holds exactly these sagas. -/
structure Holds (store : SagaStore) (sagas : List AccountCreationSaga) : Prop where
  nodup : (sagas.map AccountCreationSaga.idempotencyKey).Nodup
  row : ∀ key, store.sagas.row key = sagas.find? fun saga => saga.idempotencyKey = key

theorem key_step (mark : SagaMark) (idempotencyKey workerId : String)
    (saga : AccountCreationSaga) :
    (mark.step json idempotencyKey workerId now saga).idempotencyKey = saga.idempotencyKey := by
  rw [SagaMark.step]
  split <;> rfl

theorem Holds.mem {store : SagaStore} {sagas : List AccountCreationSaga}
    (hholds : Holds store sagas) {key : String} {saga : AccountCreationSaga}
    (hrow : store.sagas.row key = some saga) : saga ∈ sagas :=
  List.mem_of_find?_eq_some ((hholds.row key).symm.trans hrow)

theorem filter_owned {store : SagaStore} {sagas : List AccountCreationSaga}
    (hholds : Holds store sagas) {idempotencyKey workerId : String}
    {current : AccountCreationSaga} (hrow : store.sagas.row idempotencyKey = some current)
    (hlocked : current.lockedBy = some workerId) :
    (sagas.filter fun saga => Owned idempotencyKey workerId saga) = [current] := by
  have hkey := key_of_row store hrow
  refine List.perm_singleton.mp ((List.perm_ext_iff_of_nodup
    (hholds.nodup.of_map.filter _) (List.nodup_singleton current)).mpr fun saga => ?_)
  rw [List.mem_filter, decide_eq_true_iff, List.mem_singleton]
  constructor
  · rintro ⟨hmem, howned⟩
    exact List.inj_on_of_nodup_map hholds.nodup hmem (hholds.mem hrow)
      (howned.1.trans hkey.symm)
  · rintro rfl
    exact ⟨hholds.mem hrow, hkey, hlocked⟩

theorem holds_step {store store' : SagaStore} {sagas : List AccountCreationSaga}
    (hholds : Holds store sagas) {idempotencyKey workerId : String} {mark : SagaMark}
    {current : AccountCreationSaga} (hrow : store.sagas.row idempotencyKey = some current)
    (hlocked : current.lockedBy = some workerId)
    (hwrites : Writes store (mark.apply json now current) store') :
    Holds store' (sagas.map (mark.step json idempotencyKey workerId now)) := by
  have hkey := key_of_row store hrow
  have hkeys : AccountCreationSaga.idempotencyKey ∘
      mark.step json idempotencyKey workerId now = AccountCreationSaga.idempotencyKey :=
    funext (key_step mark idempotencyKey workerId)
  refine ⟨?_, fun key => ?_⟩
  · rw [List.map_map, hkeys]
    exact hholds.nodup
  · have hfind : (sagas.map (mark.step json idempotencyKey workerId now)).find?
        (fun saga => saga.idempotencyKey = key) =
        (store.sagas.row key).map (mark.step json idempotencyKey workerId now) := by
      rw [List.find?_map, hholds.row key]
      simp only [Function.comp_def, key_step]
    rw [hfind, hwrites key]
    split
    · rename_i hsame
      have hcurrent : (mark.apply json now current).idempotencyKey = idempotencyKey := hkey
      rw [hsame, hcurrent, hrow, Option.map_some, SagaMark.step, if_pos ⟨hkey, hlocked⟩]
    · rename_i hother
      cases hsaga : store.sagas.row key with
      | none => rfl
      | some saga =>
          have hnot : ¬Owned idempotencyKey workerId saga := fun howned =>
            hother (((key_of_row store hsaga).symm.trans howned.1).trans hkey.symm)
          rw [Option.map_some, SagaMark.step, if_neg hnot]

/-- A transition of the store is what the query does to the rows of its sagas, and the row
that the query returns is that of the saga that `transition` hands out. -/
theorem run_of_transition (htypes : ColumnTypes convert) {mark : SagaMark}
    (hdate : mark.HasDate) {store store' : SagaStore} {input : TransitionInput}
    {detail : TransitionDetail} {saga : AccountCreationSaga}
    (htransition : transition store input (mark.mark json).nextStatus mark.sagaUpdates detail now =
      .ok (saga, store'))
    {sagas : List AccountCreationSaga} (hholds : Holds store sagas)
    (hstorable : ∀ saga ∈ sagas, Storable json convert saga ∧ Storable json convert
      (mark.step json input.idempotencyKey input.workerId now saga))
    (haccepts : accepts ((sagas.map
      (mark.step json input.idempotencyKey input.workerId now)).map
        (sagaRow json convert)) = true) :
    let query := mark.query json input.idempotencyKey input.workerId
    ∃ sagas', Holds store' sagas' ∧
      (accountCreationSagas convert accepts).run now query.values query.text
          (sagas.map (sagaRow json convert)) =
        some (sagas'.map (sagaRow json convert), [sagaRow json convert saga]) := by
  intro query
  obtain ⟨current, hrow, hlocked, rfl, hwrites, _⟩ := transition_ok store htransition
  refine ⟨_, holds_step hholds hrow hlocked hwrites, ?_⟩
  rw [run_sagaRows htypes hdate input.idempotencyKey input.workerId hstorable haccepts,
    filter_owned hholds hrow hlocked]
  rfl

end Refinement

end Modularis.Onboarding.SagaRows
