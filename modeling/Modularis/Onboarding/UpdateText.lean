import Modularis.Foundation.Calendar
import Modularis.Foundation.Decimal
import Modularis.Foundation.SqlUpdate
import Modularis.Onboarding.Repository
import Modularis.Shared.RabbitBus

namespace Modularis.Onboarding.UpdateText

open Modularis.Foundation
open Modularis.Foundation.SqlUpdate
open Modularis.Onboarding.Repository
open Modularis.Shared.RabbitBus (Json)

section Source

/-- A value of the map of columns. -/
inductive UpdateValue where
  | null
  | text (value : String)
  | boolean (value : Bool)
deriving DecidableEq, Repr

/-- The entries of the map in the order of `Object.entries`. -/
abbrev Updates := List (String × UpdateValue)

def isTrustedSql (value : String) : Bool := value == "attempts + 1" || value == "NOW()"

def statusText : SagaStatus → String
  | .started => "STARTED"
  | .userCreated => "USER_CREATED"
  | .paymentCreated => "PAYMENT_CREATED"
  | .completed => "COMPLETED"
  | .failed => "FAILED"
  | .compensated => "COMPENSATED"

def nextActionText : SagaNextAction → String
  | .processUser => "PROCESS_USER"
  | .processPayment => "PROCESS_PAYMENT"
  | .compensateUser => "COMPENSATE_USER"
  | .complete => "COMPLETE"
  | .noop => "NOOP"

/-- The variables of the loop. -/
structure Building where
  statements : List String
  values : List Value
  parameterIndex : Nat

def Building.placeholder (building : Building) (field : String) (value : Value) :
    Building where
  statements := building.statements ++
    [field ++ " = $" ++ toString building.parameterIndex]
  values := building.values ++ [value]
  parameterIndex := building.parameterIndex + 1

/-- The body of the loop. -/
def Building.add (building : Building) : String × UpdateValue → Building
  | (field, .null) =>
      { building with statements := building.statements ++ [field ++ " = NULL"] }
  | (field, .text value) =>
      if isTrustedSql value then
        { building with statements := building.statements ++ [field ++ " = " ++ value] }
      else building.placeholder field (.text value)
  | (field, .boolean value) => building.placeholder field (.boolean value)

def start (idempotencyKey workerId : String) (nextStatus : SagaStatus) : Building where
  statements := ["status = $3", "updated_at = NOW()"]
  values := [.text idempotencyKey, .text workerId, .text (statusText nextStatus)]
  parameterIndex := 4

/-- A text with the values of its placeholders. -/
structure Query where
  text : String
  values : List Value
deriving DecidableEq, Repr

/-- The template of the statement, with its white space. -/
def updateText (statements : List String) : String :=
  "\n          UPDATE account_creation_sagas\n          SET " ++
    String.intercalate ", " statements ++
    ("\n          WHERE idempotency_key = $1\n            AND locked_by = $2" ++
      "\n          RETURNING *\n        ")

/-- The query that `transition` sends. -/
def transitionQuery (idempotencyKey workerId : String) (nextStatus : SagaStatus)
    (updates : Updates) : Query :=
  let building := updates.foldl Building.add (start idempotencyKey workerId nextStatus)
  { text := updateText building.statements, values := building.values }

/-- The table that `PostgresService` creates.  What its columns store for a value and its
constraints are the database's. -/
def accountCreationSagas (convert : String → Value → Option Value)
    (accepts : List Row → Bool) : Schema where
  table := "account_creation_sagas"
  columns := ["idempotency_key", "request_hash", "request_payload_json",
    "root_correlation_id", "status", "next_action", "user_payload_json",
    "payment_payload_json", "response_json", "error_json", "retryable", "attempts",
    "last_error_at", "next_retry_at", "locked_by", "locked_until", "created_at",
    "updated_at"]
  convert := convert
  accepts := accepts

example : ([("retryable", .boolean true), ("locked_by", .null),
      ("attempts", .text "attempts + 1"), ("next_action", .text "NOOP")].foldl Building.add
      (start "key" "worker" .failed)).statements =
    ["status = $3", "updated_at = NOW()", "retryable = $4", "locked_by = NULL",
      "attempts = attempts + 1", "next_action = $5"] := by
  decide

end Source

section Loop

/-- The value that is sent beside the text. -/
def UpdateValue.data : UpdateValue → Option Value
  | .null => none
  | .text value => if isTrustedSql value then none else some (.text value)
  | .boolean value => some (.boolean value)

/-- What stands for the value in the text if `index` is the next placeholder. -/
def UpdateValue.sql (index : Nat) : UpdateValue → String
  | .null => "NULL"
  | .text value => if isTrustedSql value then value else "$" ++ toString index
  | .boolean _ => "$" ++ toString index

/-- What the assignment means; trusted texts are put in as they are. -/
def UpdateValue.expression (index : Nat) : UpdateValue → Expression
  | .null => .null
  | .text value =>
      if value = "attempts + 1" then .sum "attempts" 1
      else if value = "NOW()" then .now
      else .parameter index
  | .boolean _ => .parameter index

/-- The entries with the placeholder that is the next one at each. -/
def numbered : Nat → Updates → List (Nat × String × UpdateValue)
  | _, [] => []
  | index, entry :: rest =>
      (index, entry) :: numbered (index + entry.2.data.isSome.toNat) rest

/-- One assignment of the text. -/
def statementText (entry : Nat × String × UpdateValue) : String :=
  entry.2.1 ++ " = " ++ entry.2.2.sql entry.1

/-- The same assignment as it is parsed. -/
def numberedAssignment (entry : Nat × String × UpdateValue) : String × Expression :=
  (entry.2.1, entry.2.2.expression entry.1)

/-- The values that a map sends. -/
def sentValues (updates : Updates) : List Value := updates.filterMap fun entry => entry.2.data

theorem data_cases (value : UpdateValue) :
    (value = .null ∨ value = .text "attempts + 1" ∨ value = .text "NOW()") ∨
      ∃ sent, value.data = some sent := by
  cases value with
  | null => exact .inl (.inl rfl)
  | text value =>
      by_cases hattempts : value = "attempts + 1"
      · exact .inl (.inr (.inl (congrArg UpdateValue.text hattempts)))
      · by_cases hnow : value = "NOW()"
        · exact .inl (.inr (.inr (congrArg UpdateValue.text hnow)))
        · exact .inr ⟨.text value, by simp [UpdateValue.data, isTrustedSql, hattempts, hnow]⟩
  | boolean value => exact .inr ⟨.boolean value, rfl⟩

theorem eq_of_data {value : UpdateValue} {sent : Value} (h : value.data = some sent) :
    (∃ text, value = .text text ∧ sent = .text text ∧ isTrustedSql text = false) ∨
      ∃ flag, value = .boolean flag ∧ sent = .boolean flag := by
  cases value with
  | null => cases h
  | text text =>
      rw [UpdateValue.data] at h
      split at h
      · cases h
      · rename_i hplain
        exact .inl ⟨text, rfl, (Option.some.inj h).symm, Bool.not_eq_true _ ▸ hplain⟩
  | boolean flag => exact .inr ⟨flag, rfl, (Option.some.inj h).symm⟩

theorem ne_of_not_trusted {text : String} (h : isTrustedSql text = false) :
    text ≠ "attempts + 1" ∧ text ≠ "NOW()" := by
  simpa [isTrustedSql] using h

theorem sql_of_data {value : UpdateValue} {sent : Value} (h : value.data = some sent)
    (index : Nat) : value.sql index = "$" ++ toString index := by
  obtain ⟨text, rfl, rfl, hplain⟩ | ⟨flag, rfl, rfl⟩ := eq_of_data h
  · simp [UpdateValue.sql, hplain]
  · rfl

theorem expression_of_data {value : UpdateValue} {sent : Value} (h : value.data = some sent)
    (index : Nat) : value.expression index = .parameter index := by
  obtain ⟨text, rfl, rfl, hplain⟩ | ⟨flag, rfl, rfl⟩ := eq_of_data h
  · simp [UpdateValue.expression, ne_of_not_trusted hplain]
  · rfl

theorem placeholder_eq (building : Building) (field : String) (value : Value) :
    building.placeholder field value =
      { statements := building.statements ++
          [field ++ " = " ++ ("$" ++ toString building.parameterIndex)]
        values := building.values ++ [value]
        parameterIndex := building.parameterIndex + 1 } := by
  have htext : field ++ " = $" ++ toString building.parameterIndex =
      field ++ " = " ++ ("$" ++ toString building.parameterIndex) :=
    String.toList_inj.mp (by simp)
  rw [Building.placeholder, htext]

theorem add_eq (building : Building) (entry : String × UpdateValue) :
    building.add entry =
      { statements := building.statements ++
          [statementText (building.parameterIndex, entry)]
        values := building.values ++ entry.2.data.toList
        parameterIndex := building.parameterIndex + entry.2.data.isSome.toNat } := by
  obtain ⟨field, value⟩ := entry
  cases value with
  | null =>
      have htext : field ++ " = NULL" = field ++ " = " ++ "NULL" :=
        String.toList_inj.mp (by simp)
      rw [Building.add, htext]
      simp [statementText, UpdateValue.sql, UpdateValue.data]
  | text value =>
      rw [Building.add, placeholder_eq]
      cases htrusted : isTrustedSql value <;>
        simp [statementText, UpdateValue.sql, UpdateValue.data, htrusted]
  | boolean value =>
      rw [Building.add, placeholder_eq]
      simp [statementText, UpdateValue.sql, UpdateValue.data]

theorem foldl_add (building : Building) (updates : Updates) :
    updates.foldl Building.add building =
      { statements := building.statements ++
          (numbered building.parameterIndex updates).map statementText
        values := building.values ++ sentValues updates
        parameterIndex := building.parameterIndex + (sentValues updates).length } := by
  induction updates generalizing building with
  | nil => simp [numbered, sentValues]
  | cons entry rest ih =>
      rw [List.foldl_cons, ih, add_eq]
      cases hdata : entry.2.data <;>
        simp [numbered, sentValues, hdata, Nat.add_assoc, Nat.add_comm]

end Loop

section Text

theorem lex_sql (index : Nat) (value : UpdateValue) :
    lex (value.sql index).toList = (value.expression index).tokens := by
  rcases data_cases value with (rfl | rfl | rfl) | ⟨sent, hsent⟩
  · exact (by decide : lex "NULL".toList = [.name "null"])
  · exact (by decide :
      lex "attempts + 1".toList = [.name "attempts", .symbol '+', .number 1])
  · exact (by decide : lex "NOW()".toList = [.name "now", .symbol '(', .symbol ')'])
  · rw [sql_of_data hsent, expression_of_data hsent, String.toList_append,
      Nat.toString_eq_repr, Nat.toList_repr]
    exact lex_placeholder index

theorem lex_statementText {entry : Nat × String × UpdateValue} (h : IsName entry.2.1) :
    lex (statementText entry).toList = assignmentTokens (numberedAssignment entry) := by
  have hequals : lex " = ".toList = [.symbol '='] := by decide
  rw [statementText, String.toList_append, String.toList_append, List.append_assoc,
    lex_append entry.2.1.toList (breaks_append (by decide) _),
    lex_append_of_last (s := " = ".toList) (by decide), hequals, h.1, lex_sql]
  rfl

/-- The statement that the text of `transition` is read as. -/
def updateStatement (updates : Updates) : Update where
  table := "account_creation_sagas"
  assignments := ("status", .parameter 3) :: ("updated_at", .now) ::
    (numbered 4 updates).map numberedAssignment
  conditions := [("idempotency_key", 1), ("locked_by", 2)]

theorem transitionQuery_eq (idempotencyKey workerId : String) (nextStatus : SagaStatus)
    (updates : Updates) :
    transitionQuery idempotencyKey workerId nextStatus updates =
      { text := updateText
          (["status = $3", "updated_at = NOW()"] ++ (numbered 4 updates).map statementText)
        values := [.text idempotencyKey, .text workerId, .text (statusText nextStatus)] ++
          sentValues updates } := by
  rw [transitionQuery, foldl_add]
  rfl

theorem field_of_mem_numbered {index : Nat} {updates : Updates}
    {entry : Nat × String × UpdateValue} (h : entry ∈ numbered index updates) :
    entry.2 ∈ updates := by
  induction updates generalizing index with
  | nil => cases h
  | cons first rest ih =>
      rcases List.mem_cons.mp h with rfl | h
      · exact List.mem_cons_self
      · exact List.mem_cons_of_mem _ (ih h)

theorem lex_updateText (statements : List String) :
    lex (updateText statements).toList =
      [.name "update", .name "account_creation_sagas", .name "set"] ++
        ([.symbol ','].intercalate (statements.map fun statement => lex statement.toList) ++
          [.name "where", .name "idempotency_key", .symbol '=', .parameter 1, .name "and",
            .name "locked_by", .symbol '=', .parameter 2, .name "returning", .symbol '*']) := by
  have hbefore : lex "\n          UPDATE account_creation_sagas\n          SET ".toList =
      [.name "update", .name "account_creation_sagas", .name "set"] := by decide
  have hafter : lex ("\n          WHERE idempotency_key = $1\n            AND locked_by = $2" ++
      "\n          RETURNING *\n        ").toList =
      [.name "where", .name "idempotency_key", .symbol '=', .parameter 1, .name "and",
        .name "locked_by", .symbol '=', .parameter 2, .name "returning", .symbol '*'] := by
    decide
  have htext := lex_commas "\n          UPDATE account_creation_sagas\n          SET "
    ("\n          WHERE idempotency_key = $1\n            AND locked_by = $2" ++
      "\n          RETURNING *\n        ") statements (by decide) (by decide)
  rw [hbefore, hafter] at htext
  exact htext

/-- The text of `transition` is read as the statement that assigns to the fields of the
map in their order. -/
theorem lex_transition {updates : Updates}
    (hnames : ∀ entry ∈ updates, IsName entry.1) (idempotencyKey workerId : String)
    (nextStatus : SagaStatus) :
    lex (transitionQuery idempotencyKey workerId nextStatus updates).text.toList =
      (updateStatement updates).tokens := by
  have hstatements : ((numbered 4 updates).map statementText).map
      (fun statement => lex statement.toList) =
      ((numbered 4 updates).map numberedAssignment).map assignmentTokens := by
    rw [List.map_map, List.map_map]
    exact List.map_congr_left fun entry hentry =>
      lex_statementText (hnames entry.2 (field_of_mem_numbered hentry))
  have hstatus : lex "status = $3".toList = assignmentTokens ("status", .parameter 3) := by
    decide
  have hupdatedAt : lex "updated_at = NOW()".toList =
      assignmentTokens ("updated_at", .now) := by decide
  rw [transitionQuery_eq, lex_updateText, List.map_append, hstatements, List.map_cons,
    List.map_cons, List.map_nil, hstatus, hupdatedAt]
  rfl

end Text

section Meaning

variable (schema : Schema) (now : Int)

/-- What the map asks a column to become, given the row before; `none` is an error and
`some none` is `NULL`. -/
def UpdateValue.meaning (row : Row) : UpdateValue → Option (Option Value)
  | .null => some none
  | .text value =>
      if value = "attempts + 1" then
        match row "attempts" with
        | none => some none
        | some (.integer attempts) => some (some (.integer (attempts + 1)))
        | some _ => none
      else if value = "NOW()" then some (some (.timestamp now))
      else some (some (.text value))
  | .boolean value => some (some (.boolean value))

/-- The row after the update: the status, the time and the fields of the map are set and
all other columns are as before. -/
structure Sets (nextStatus : SagaStatus) (updates : Updates) (row updated : Row) : Prop where
  status : schema.store "status" (some (.text (statusText nextStatus))) =
    some (updated "status")
  updatedAt : schema.store "updated_at" (some (.timestamp now)) = some (updated "updated_at")
  fields : ∀ entry ∈ updates,
    (entry.2.meaning now row).bind (schema.store entry.1) = some (updated entry.1)
  others : ∀ column, column ≠ "status" → column ≠ "updated_at" →
    column ∉ updates.map Prod.fst → updated column = row column

/-- A column holds a text. -/
def holds (row : Row) (column text : String) : Bool :=
  (row column).isSome && row column == schema.convert column (.text text)

/-- The row of the saga, locked by the worker. -/
def isLocked (idempotencyKey workerId : String) (row : Row) : Bool :=
  holds schema row "idempotency_key" idempotencyKey && holds schema row "locked_by" workerId

variable {schema now}

theorem meaning_of_data {value : UpdateValue} {sent : Value} (h : value.data = some sent)
    (row : Row) : value.meaning now row = some (some sent) := by
  obtain ⟨text, rfl, rfl, hplain⟩ | ⟨flag, rfl, rfl⟩ := eq_of_data h
  · simp [UpdateValue.meaning, ne_of_not_trusted hplain]
  · rfl

theorem map_snd_numbered (index : Nat) (updates : Updates) :
    (numbered index updates).map Prod.snd = updates := by
  induction updates generalizing index with
  | nil => rfl
  | cons entry rest ih => rw [numbered, List.map_cons, ih]

/-- If the values before it fill the placeholders below `index`, an entry that is numbered
from there gets its own value. -/
theorem eval_numbered {index : Nat} (updates : Updates) (sent : List Value)
    (hindex : index = sent.length + 1) (row : Row) :
    ∀ entry ∈ numbered index updates,
      (entry.2.2.expression entry.1).eval now (sent ++ sentValues updates) row =
        entry.2.2.meaning now row := by
  induction updates generalizing index sent with
  | nil => simp [numbered]
  | cons first rest ih =>
      obtain ⟨field, value⟩ := first
      have hsent : sent ++ sentValues ((field, value) :: rest) =
          (sent ++ value.data.toList) ++ sentValues rest := by
        cases hdata : value.data <;> simp [sentValues, hdata]
      have hnext : index + value.data.isSome.toNat =
          (sent ++ value.data.toList).length + 1 := by
        cases hdata : value.data <;> simp [hindex]
      rw [numbered, List.forall_mem_cons]
      refine ⟨?_, by rw [hsent]; exact ih _ hnext⟩
      rcases data_cases value with (rfl | rfl | rfl) | ⟨d, hd⟩
      · rfl
      · rfl
      · rfl
      · rw [expression_of_data hd, meaning_of_data hd, hsent, hd, hindex]
        simp [Expression.eval]

theorem fields_updateStatement (updates : Updates) :
    (updateStatement updates).assignments.map Prod.fst =
      "status" :: "updated_at" :: updates.map Prod.fst := by
  have hfields : ((numbered 4 updates).map numberedAssignment).map Prod.fst =
      updates.map Prod.fst := by
    conv_rhs => rw [← map_snd_numbered 4 updates]
    rw [List.map_map, List.map_map]
    rfl
  rw [updateStatement, List.map_cons, List.map_cons, hfields]

theorem placeholders_numbered (index : Nat) (updates : Updates) :
    ((numbered index updates).map numberedAssignment).filterMap (fun a => a.2.placeholder) =
      List.range' index (sentValues updates).length := by
  induction updates generalizing index with
  | nil => rfl
  | cons first rest ih =>
      have hplaceholder : (first.2.expression index).placeholder =
          first.2.data.map fun _ => index := by
        obtain ⟨field, value⟩ := first
        rcases data_cases value with (rfl | rfl | rfl) | ⟨sent, hsent⟩
        · rfl
        · rfl
        · rfl
        · rw [expression_of_data hsent, hsent]
          rfl
      rw [numbered, List.map_cons, List.filterMap_cons, ih]
      simp only [numberedAssignment, hplaceholder, sentValues, List.filterMap_cons]
      cases first.2.data <;> simp [List.range'_succ]

theorem placeholders_updateStatement (updates : Updates) :
    (placeholders (updateStatement updates).tokens).Perm
      (List.range' 1 ((sentValues updates).length + 3)) := by
  have hset : (updateStatement updates).assignments.filterMap (fun a => a.2.placeholder) =
      List.range' 3 ((sentValues updates).length + 1) := by
    rw [List.range'_succ, ← placeholders_numbered]
    rfl
  have hwhere : (updateStatement updates).conditions.map Prod.snd = List.range' 1 2 := rfl
  rw [placeholders_tokens, hset, hwhere]
  refine List.perm_append_comm.trans (List.Perm.of_eq ?_)
  rw [List.range'_append_1]
  congr 1
  omega

theorem selects_updateStatement (idempotencyKey workerId : String) (nextStatus : SagaStatus)
    (updates : Updates) (row : Row) :
    schema.selects (transitionQuery idempotencyKey workerId nextStatus updates).values
      (updateStatement updates).conditions row =
        isLocked schema idempotencyKey workerId row := by
  rw [transitionQuery_eq]
  simp [Schema.selects, updateStatement, isLocked, holds]

theorem assign_updateStatement {updates : Updates}
    (hdistinct : ("status" :: "updated_at" :: updates.map Prod.fst).Nodup)
    (idempotencyKey workerId : String) (nextStatus : SagaStatus) (row row' : Row) :
    schema.assign now (transitionQuery idempotencyKey workerId nextStatus updates).values row
        (updateStatement updates).assignments = some row' ↔
      Sets schema now nextStatus updates row row' := by
  rw [← fields_updateStatement] at hdistinct
  rw [assign_eq_some hdistinct, fields_updateStatement, transitionQuery_eq]
  have heval : ∀ entry ∈ numbered 4 updates, _ = entry.2.2.meaning now row :=
    eval_numbered updates
      [.text idempotencyKey, .text workerId, .text (statusText nextStatus)] rfl row
  have hfields : (∀ a ∈ (numbered 4 updates).map numberedAssignment,
      schema.cell now ([.text idempotencyKey, .text workerId, .text (statusText nextStatus)] ++
        sentValues updates) row a = some (row' a.1)) ↔
      ∀ entry ∈ updates,
        (entry.2.meaning now row).bind (schema.store entry.1) = some (row' entry.1) := by
    conv_rhs => rw [← map_snd_numbered 4 updates]
    rw [List.forall_mem_map, List.forall_mem_map]
    refine forall₂_congr fun entry hentry => ?_
    rw [← heval entry hentry]
    rfl
  constructor
  · rintro ⟨hcells, hothers⟩
    rw [updateStatement, List.forall_mem_cons, List.forall_mem_cons] at hcells
    refine ⟨hcells.1, hcells.2.1, hfields.mp hcells.2.2, ?_⟩
    intro column hstatus hupdatedAt hcolumn
    exact hothers column (by simp [hstatus, hupdatedAt, hcolumn])
  · rintro ⟨hstatus, hupdatedAt, hcells, hothers⟩
    refine ⟨?_, ?_⟩
    · rw [updateStatement, List.forall_mem_cons, List.forall_mem_cons]
      exact ⟨hstatus, hupdatedAt, hfields.mpr hcells⟩
    · intro column hcolumn
      simp only [List.mem_cons, not_or] at hcolumn
      exact hothers column hcolumn.1 hcolumn.2.1 hcolumn.2.2

theorem columns_expression {value : UpdateValue} {index : Nat} {column : String}
    (h : column ∈ (value.expression index).columns) : column = "attempts" := by
  rcases data_cases value with (rfl | rfl | rfl) | ⟨sent, hsent⟩
  · cases h
  · exact List.mem_singleton.mp h
  · cases h
  · rw [expression_of_data hsent] at h
    cases h

theorem columns_updateStatement {updates : Updates} {column : String}
    (h : column ∈ (updateStatement updates).columns) :
    column ∈ updates.map Prod.fst ∨
      column ∈ ["status", "updated_at", "attempts", "idempotency_key", "locked_by"] := by
  rcases List.mem_append.mp h with hset | hwhere
  · obtain ⟨a, ha, hcolumn⟩ := List.mem_flatMap.mp hset
    simp only [updateStatement, List.mem_cons, List.mem_map] at ha
    obtain rfl | rfl | ⟨entry, hentry, rfl⟩ := ha
    · obtain rfl : column = "status" := List.mem_singleton.mp hcolumn
      exact .inr (by simp)
    · obtain rfl : column = "updated_at" := List.mem_singleton.mp hcolumn
      exact .inr (by simp)
    · rcases List.mem_cons.mp hcolumn with rfl | hcolumn
      · exact .inl (List.mem_map_of_mem (field_of_mem_numbered hentry))
      · exact .inr (by simp [columns_expression hcolumn])
  · simp only [updateStatement, List.map_cons, List.map_nil, List.mem_cons, List.not_mem_nil,
      or_false] at hwhere
    rcases hwhere with rfl | rfl
    · exact .inr (by simp)
    · exact .inr (by simp)

theorem fits_updateStatement {updates : Updates}
    (hdistinct : ("status" :: "updated_at" :: updates.map Prod.fst).Nodup)
    (convert : String → Value → Option Value) (accepts : List Row → Bool) :
    (updateStatement updates).Fits (accountCreationSagas convert accepts) ↔
      ∀ field ∈ updates.map Prod.fst,
        field ∈ (accountCreationSagas convert accepts).columns := by
  rw [← fields_updateStatement] at hdistinct
  constructor
  · rintro ⟨_, hcolumns, _⟩ field hfield
    have hset : field ∈ (updateStatement updates).assignments.map Prod.fst := by
      rw [fields_updateStatement]
      exact List.mem_cons_of_mem _ (List.mem_cons_of_mem _ hfield)
    obtain ⟨a, ha, rfl⟩ := List.mem_map.mp hset
    exact hcolumns a.1 (List.mem_append_left _
      (List.mem_flatMap.mpr ⟨a, ha, List.mem_cons_self⟩))
  · intro hfields
    refine ⟨rfl, ?_, hdistinct⟩
    intro column hcolumn
    rcases columns_updateStatement hcolumn with hfield | hfixed
    · exact hfields column hfield
    · have hall : ∀ column ∈
          ["status", "updated_at", "attempts", "idempotency_key", "locked_by"],
          column ∈ (accountCreationSagas convert accepts).columns := by
        simp [accountCreationSagas]
      exact hall column hfixed

theorem parse_updateStatement {updates : Updates}
    (hnames : ∀ entry ∈ updates, IsName entry.1) :
    parse (updateStatement updates).tokens = some (updateStatement updates) := by
  refine parse_tokens (List.cons_ne_nil _ _) (List.cons_ne_nil _ _) ?_
  intro column hcolumn
  rcases columns_updateStatement hcolumn with hfield | hfixed
  · obtain ⟨entry, hentry, rfl⟩ := List.mem_map.mp hfield
    exact (hnames entry hentry).2
  · have hall : ∀ column ∈
        ["status", "updated_at", "attempts", "idempotency_key", "locked_by"],
        column ∉ reserved := by decide
    exact hall column hfixed

theorem updateRow_updateStatement {updates : Updates}
    (hdistinct : ("status" :: "updated_at" :: updates.map Prod.fst).Nodup)
    (idempotencyKey workerId : String) (nextStatus : SagaStatus) (row row' : Row) :
    schema.updateRow now (transitionQuery idempotencyKey workerId nextStatus updates).values
        (updateStatement updates) row = some row' ↔
      if isLocked schema idempotencyKey workerId row then
        Sets schema now nextStatus updates row row'
      else row' = row := by
  rw [Schema.updateRow, selects_updateStatement]
  split
  · exact assign_updateStatement hdistinct idempotencyKey workerId nextStatus row row'
  · rw [Option.some.injEq, eq_comm]

theorem length_values (idempotencyKey workerId : String) (nextStatus : SagaStatus)
    (updates : Updates) :
    (transitionQuery idempotencyKey workerId nextStatus updates).values.length =
      (sentValues updates).length + 3 := by
  rw [transitionQuery_eq, List.length_append]
  exact Nat.add_comm _ _

theorem run_transition {updates : Updates} (hnames : ∀ entry ∈ updates, IsName entry.1)
    (hdistinct : ("status" :: "updated_at" :: updates.map Prod.fst).Nodup)
    (convert : String → Value → Option Value) (accepts : List Row → Bool)
    (idempotencyKey workerId : String) (nextStatus : SagaStatus)
    (rows rows' returned : List Row) :
    let schema := accountCreationSagas convert accepts
    let query := transitionQuery idempotencyKey workerId nextStatus updates
    schema.run now query.values query.text rows = some (rows', returned) ↔
      (∀ field ∈ updates.map Prod.fst, field ∈ schema.columns) ∧
      List.Forall₂ (fun row row' =>
        if isLocked schema idempotencyKey workerId row then
          Sets schema now nextStatus updates row row'
        else row' = row) rows rows' ∧
      accepts rows' = true ∧
      returned = ((rows.zip rows').filter fun pair =>
        isLocked schema idempotencyKey workerId pair.1).map Prod.snd := by
  intro schema query
  have hbound : Bound (placeholders (updateStatement updates).tokens) query.values.length := by
    rw [length_values]
    exact bound_of_perm (placeholders_updateStatement updates)
  rw [Schema.run, lex_transition hnames, if_pos hbound, parse_updateStatement hnames,
    Option.bind_some, execute_eq_some, fits_updateStatement hdistinct]
  simp only [query, updateRow_updateStatement hdistinct, selects_updateStatement]
  rfl

/-- Two values leave the same mark on the text: they are the same, or both are sent beside
it. -/
def Alike (value value' : UpdateValue) : Prop :=
  value = value' ∨ value.data.isSome = true ∧ value'.data.isSome = true

theorem statementTexts_congr {updates updates' : Updates}
    (h : List.Forall₂ (fun entry entry' => entry.1 = entry'.1 ∧ Alike entry.2 entry'.2)
      updates updates') (index : Nat) :
    (numbered index updates).map statementText =
      (numbered index updates').map statementText := by
  induction h generalizing index with
  | nil => rfl
  | @cons entry entry' rest rest' hhead _ ih =>
      obtain ⟨field, value⟩ := entry
      obtain ⟨field', value'⟩ := entry'
      obtain ⟨rfl, halike⟩ := hhead
      have hvalue : value.sql index = value'.sql index ∧
          value.data.isSome = value'.data.isSome := by
        rcases halike with rfl | ⟨hsome, hsome'⟩
        · exact ⟨rfl, rfl⟩
        · obtain ⟨sent, hsent⟩ := Option.isSome_iff_exists.mp hsome
          obtain ⟨sent', hsent'⟩ := Option.isSome_iff_exists.mp hsome'
          exact ⟨by rw [sql_of_data hsent, sql_of_data hsent'], hsome.trans hsome'.symm⟩
      simp only [numbered, List.map_cons, statementText, hvalue.1, hvalue.2, ih]

/-- The text depends neither on the values that are sent nor on the key, the worker and
the status. -/
theorem text_congr {updates updates' : Updates}
    (h : List.Forall₂ (fun entry entry' => entry.1 = entry'.1 ∧ Alike entry.2 entry'.2)
      updates updates')
    (idempotencyKey idempotencyKey' workerId workerId' : String)
    (nextStatus nextStatus' : SagaStatus) :
    (transitionQuery idempotencyKey workerId nextStatus updates).text =
      (transitionQuery idempotencyKey' workerId' nextStatus' updates').text := by
  rw [transitionQuery_eq, transitionQuery_eq, statementTexts_congr h]

end Meaning

section Callers

/-- The text of a JSON number. -/
structure Numeral where
  text : String
  start : ∃ c ∈ text.toList.head?, c = '-' ∨ c.isDigit = true

/-- The characters with an escape of two characters. -/
def shortEscapes : List (Char × Char) :=
  [('\x08', 'b'), ('\t', 't'), ('\n', 'n'), ('\x0c', 'f'), ('\r', 'r'), ('"', '"'),
    ('\\', '\\')]

/-- How `JSON.stringify` writes a character. -/
def escape (c : Char) : List Char :=
  match shortEscapes.lookup c with
  | some short => ['\\', short]
  | none =>
      if c.toNat < 0x20 then
        ['\\', 'u', '0', '0', Nat.digitChar (c.toNat / 16), Nat.digitChar (c.toNat % 16)]
      else [c]

/-- A string with its quotes. -/
def quote (s : String) : String :=
  String.ofList ('"' :: (s.toList.flatMap escape ++ ['"']))

variable (numberText : Rat → Numeral)

mutual

/-- `JSON.stringify`. -/
def stringify : Json → String
  | .null => "null"
  | .bool value => if value then "true" else "false"
  | .number value => (numberText value).text
  | .string value => quote value
  | .array items => "[" ++ String.intercalate "," (stringifyItems items) ++ "]"
  | .object members => "\x7b" ++ String.intercalate "," (stringifyMembers members) ++ "\x7d"

/-- The items of an array, one by one. -/
def stringifyItems : List Json → List String
  | [] => []
  | item :: items => stringify item :: stringifyItems items

/-- The members of an object, in their order. -/
def stringifyMembers : List (String × Json) → List String
  | [] => []
  | (key, value) :: members =>
      (quote key ++ ":" ++ stringify value) :: stringifyMembers members

end

/-- The year of an ISO date has four digits, or six and a sign. -/
def yearText (year : Int) : List Char :=
  if 0 ≤ year ∧ year ≤ 9999 then Decimal.digits 4 year.toNat
  else (if year < 0 then '-' else '+') :: Decimal.digits 6 year.natAbs

/-- `Date.prototype.toISOString` of a time in milliseconds. -/
def toISOString (time : Int) : String :=
  let date := Calendar.dateOfDay (Calendar.epoch + time / 86400000)
  let ms := (time % 86400000).toNat
  String.ofList (yearText date.year ++ '-' :: Decimal.digits 2 date.month ++
    '-' :: Decimal.digits 2 date.day ++ 'T' :: Decimal.digits 2 (ms / 3600000) ++
    ':' :: Decimal.digits 2 (ms / 60000 % 60) ++ ':' :: Decimal.digits 2 (ms / 1000 % 60) ++
    '.' :: Decimal.digits 3 (ms % 1000) ++ ['Z'])

example : toISOString 1727999999007 = "2024-10-03T23:59:59.007Z" := by decide

/-- The map of `markUserCreated`. -/
def Updates.userCreated (userPayload : Json) : Updates :=
  [("next_action", .text "PROCESS_PAYMENT"),
    ("user_payload_json", .text (stringify numberText userPayload)),
    ("error_json", .null),
    ("retryable", .boolean false),
    ("next_retry_at", .null),
    ("response_json", .null)]

/-- The updates of `markPaymentCreated`. -/
def Updates.paymentCreated (paymentPayload : Json) : Updates :=
  [("next_action", .text "COMPLETE"),
    ("payment_payload_json", .text (stringify numberText paymentPayload)),
    ("error_json", .null),
    ("retryable", .boolean false),
    ("next_retry_at", .null),
    ("response_json", .null)]

/-- The updates of `markCompleted`. -/
def Updates.completed (response : Json) : Updates :=
  [("next_action", .text "NOOP"),
    ("response_json", .text (stringify numberText response)),
    ("error_json", .null),
    ("retryable", .boolean false),
    ("next_retry_at", .null),
    ("locked_by", .null),
    ("locked_until", .null)]

/-- A date as the statement gets it. -/
def isoOrNull : Option Int → UpdateValue
  | some time => .text (toISOString time)
  | none => .null

/-- The updates of `markFailed`. -/
def Updates.failed (error : Json) (retryable : Bool) (nextAction : SagaNextAction)
    (nextRetryAt : Option Int) : Updates :=
  [("next_action", .text (nextActionText nextAction)),
    ("error_json", .text (stringify numberText error)),
    ("retryable", .boolean retryable),
    ("attempts", .text "attempts + 1"),
    ("last_error_at", .text "NOW()"),
    ("next_retry_at", isoOrNull nextRetryAt),
    ("locked_by", .null),
    ("locked_until", .null)]

/-- The updates of `markCompensated`. -/
def Updates.compensated (error : Json) : Updates :=
  [("next_action", .text "NOOP"),
    ("error_json", .text (stringify numberText error)),
    ("retryable", .boolean false),
    ("attempts", .text "attempts + 1"),
    ("last_error_at", .text "NOW()"),
    ("next_retry_at", .null),
    ("locked_by", .null),
    ("locked_until", .null)]

/-- A call of one of the five; the payloads are any JSON values. -/
inductive Mark where
  | userCreated (userPayload : Json)
  | paymentCreated (paymentPayload : Json)
  | completed (response : Json)
  | failed (error : Json) (retryable : Bool) (nextAction : SagaNextAction)
      (nextRetryAt : Option Int)
  | compensated (error : Json)

/-- The status that a mark leads to. -/
def Mark.nextStatus : Mark → SagaStatus
  | .userCreated _ => .userCreated
  | .paymentCreated _ => .paymentCreated
  | .completed _ => .completed
  | .failed _ _ _ _ => .failed
  | .compensated _ => .compensated

/-- The updates of a mark. -/
def Mark.updates : Mark → Updates
  | .userCreated userPayload => .userCreated numberText userPayload
  | .paymentCreated paymentPayload => .paymentCreated numberText paymentPayload
  | .completed response => .completed numberText response
  | .failed error retryable nextAction nextRetryAt =>
      .failed numberText error retryable nextAction nextRetryAt
  | .compensated error => .compensated numberText error

/-- The snapshot, the response or the error of a call. -/
def Mark.payload : Mark → Json
  | .userCreated userPayload => userPayload
  | .paymentCreated paymentPayload => paymentPayload
  | .completed response => response
  | .failed error _ _ _ => error
  | .compensated error => error

theorem not_trusted_of_head {s : String}
    (h : ∃ c ∈ s.toList.head?, c ≠ 'a' ∧ c ≠ 'N') : isTrustedSql s = false := by
  obtain ⟨c, hc, ha, hN⟩ := h
  by_contra htrusted
  rw [Bool.not_eq_false, isTrustedSql, Bool.or_eq_true, beq_iff_eq, beq_iff_eq] at htrusted
  rcases htrusted with rfl | rfl
  · exact ha (Option.some.inj hc).symm
  · exact hN (Option.some.inj hc).symm

theorem ne_of_start {c : Char} (h : c = '-' ∨ c.isDigit = true) : c ≠ 'a' ∧ c ≠ 'N' := by
  constructor
  · rintro rfl
    revert h
    decide
  · rintro rfl
    revert h
    decide

/-- Serialised JSON begins with a bracket, a quotation mark, a minus sign, a digit or one
of the letters of `null`, `true` and `false`. -/
theorem stringify_not_trusted (json : Json) :
    isTrustedSql (stringify numberText json) = false := by
  apply not_trusted_of_head
  cases json with
  | null => exact ⟨'n', by simp [stringify], by decide⟩
  | bool value =>
      cases value with
      | true => exact ⟨'t', by simp [stringify], by decide⟩
      | false => exact ⟨'f', by simp [stringify], by decide⟩
  | number value =>
      obtain ⟨c, hc, hstart⟩ := (numberText value).start
      exact ⟨c, by rw [stringify]; exact hc, ne_of_start hstart⟩
  | string value =>
      refine ⟨'"', ?_, by decide⟩
      rw [stringify, quote, String.toList_ofList]
      rfl
  | array items => exact ⟨'[', by simp [stringify], by decide⟩
  | object members => exact ⟨'\x7b', by simp [stringify], by decide⟩

theorem exists_start_yearText (year : Int) :
    ∃ c ∈ (yearText year).head?, c ≠ 'a' ∧ c ≠ 'N' := by
  rw [yearText]
  split
  · obtain ⟨c, rest, hdigits⟩ := List.exists_cons_of_length_eq_add_one
      (Decimal.length_digits 4 year.toNat)
    have hdigit : c.isDigit = true :=
      Decimal.isDigit_of_mem_digits (hdigits ▸ List.mem_cons_self)
    exact ⟨c, by simp [hdigits], ne_of_start (.inr hdigit)⟩
  · split
    · exact ⟨'-', rfl, by decide⟩
    · exact ⟨'+', rfl, by decide⟩

theorem toISOString_not_trusted (time : Int) : isTrustedSql (toISOString time) = false := by
  obtain ⟨c, hc, hne⟩ :=
    exists_start_yearText (Calendar.dateOfDay (Calendar.epoch + time / 86400000)).year
  refine not_trusted_of_head ⟨c, ?_, hne⟩
  simp only [toISOString, String.toList_ofList, List.append_assoc]
  exact List.mem_head?_append_of_mem_head? hc

theorem nextActionText_not_trusted (nextAction : SagaNextAction) :
    isTrustedSql (nextActionText nextAction) = false := by
  cases nextAction <;> decide

theorem isName_of_mem_columns (convert : String → Value → Option Value)
    (accepts : List Row → Bool) {field : String}
    (h : field ∈ (accountCreationSagas convert accepts).columns) : IsName field := by
  have hall : ∀ field ∈ (accountCreationSagas (fun _ _ => none) fun _ => true).columns,
      IsName field := by decide
  exact hall field h

theorem mem_columns_of_mark (mark : Mark) (convert : String → Value → Option Value)
    (accepts : List Row → Bool) :
    ∀ entry ∈ mark.updates numberText,
      entry.1 ∈ (accountCreationSagas convert accepts).columns := by
  cases mark <;>
    simp [Mark.updates, Updates.userCreated, Updates.paymentCreated, Updates.completed,
      Updates.failed, Updates.compensated, accountCreationSagas]

theorem nodup_of_mark (mark : Mark) :
    ("status" :: "updated_at" :: (mark.updates numberText).map Prod.fst).Nodup := by
  cases mark <;>
    simp [Mark.updates, Updates.userCreated, Updates.paymentCreated, Updates.completed,
      Updates.failed, Updates.compensated]

theorem trusted_of_mark (mark : Mark) :
    ∀ entry ∈ mark.updates numberText, ∀ text, entry.2 = .text text →
      isTrustedSql text = true →
        entry.1 = "attempts" ∧ text = "attempts + 1" ∨
          entry.1 = "last_error_at" ∧ text = "NOW()" := by
  have hprocess : isTrustedSql "PROCESS_PAYMENT" = false := by decide
  have hcomplete : isTrustedSql "COMPLETE" = false := by decide
  have hnoop : isTrustedSql "NOOP" = false := by decide
  cases mark with
  | userCreated userPayload =>
      simp [Mark.updates, Updates.userCreated, stringify_not_trusted, hprocess]
  | paymentCreated paymentPayload =>
      simp [Mark.updates, Updates.paymentCreated, stringify_not_trusted, hcomplete]
  | completed response =>
      simp [Mark.updates, Updates.completed, stringify_not_trusted, hnoop]
  | failed error retryable nextAction nextRetryAt =>
      cases nextRetryAt <;>
        simp [Mark.updates, Updates.failed, isoOrNull, stringify_not_trusted,
          nextActionText_not_trusted, toISOString_not_trusted]
  | compensated error =>
      simp [Mark.updates, Updates.compensated, stringify_not_trusted, hnoop]

end Callers

section Query

/-- For every map of distinct columns other than the status and the time: the text of
`transition` uses each placeholder from `$1` to the number of values once, running it does
to the rows what the map says and nothing else, and it says nothing of the values that are
sent beside it.  The maps of the five callers are of this kind, and no serialised payload
of theirs passes for one of the two trusted texts. -/
theorem generated_update (numberText : Rat → Numeral) :
    (∀ (idempotencyKey workerId : String) (nextStatus : SagaStatus) (updates : Updates),
      (∀ entry ∈ updates, IsName entry.1) →
      ("status" :: "updated_at" :: updates.map Prod.fst).Nodup →
      let query := transitionQuery idempotencyKey workerId nextStatus updates
      (placeholders (lex query.text.toList)).Perm (List.range' 1 query.values.length) ∧
      (∀ (convert : String → Value → Option Value) (accepts : List Row → Bool) (now : Int)
        (rows rows' returned : List Row),
        let schema := accountCreationSagas convert accepts
        schema.run now query.values query.text rows = some (rows', returned) ↔
          (∀ entry ∈ updates, entry.1 ∈ schema.columns) ∧
          List.Forall₂ (fun row row' =>
            if isLocked schema idempotencyKey workerId row then
              Sets schema now nextStatus updates row row'
            else row' = row) rows rows' ∧
          accepts rows' = true ∧
          returned = ((rows.zip rows').filter fun pair =>
            isLocked schema idempotencyKey workerId pair.1).map Prod.snd) ∧
      ∀ (idempotencyKey' workerId' : String) (nextStatus' : SagaStatus) (updates' : Updates),
        List.Forall₂ (fun entry entry' => entry.1 = entry'.1 ∧ Alike entry.2 entry'.2)
          updates updates' →
        (transitionQuery idempotencyKey' workerId' nextStatus' updates').text = query.text) ∧
    ∀ mark : Mark,
      isTrustedSql (stringify numberText mark.payload) = false ∧
      (∀ entry ∈ mark.updates numberText, ∀ text, entry.2 = .text text →
        isTrustedSql text = true →
          entry.1 = "attempts" ∧ text = "attempts + 1" ∨
            entry.1 = "last_error_at" ∧ text = "NOW()") ∧
      (∀ entry ∈ mark.updates numberText, IsName entry.1) ∧
      ("status" :: "updated_at" :: (mark.updates numberText).map Prod.fst).Nodup := by
  constructor
  · intro idempotencyKey workerId nextStatus updates hnames hdistinct query
    refine ⟨?_, ?_, ?_⟩
    · rw [lex_transition hnames, length_values]
      exact placeholders_updateStatement updates
    · intro convert accepts now rows rows' returned schema
      rw [← List.forall_mem_map (P := (· ∈ schema.columns))]
      exact run_transition hnames hdistinct convert accepts idempotencyKey workerId nextStatus
        rows rows' returned
    · intro idempotencyKey' workerId' nextStatus' updates' halike
      exact (text_congr halike _ _ _ _ _ _).symm
  · intro mark
    exact ⟨stringify_not_trusted numberText mark.payload, trusted_of_mark numberText mark,
      fun entry hentry => isName_of_mem_columns (fun _ _ => none) (fun _ => true)
        (mem_columns_of_mark numberText mark _ _ entry hentry),
      nodup_of_mark numberText mark⟩

/-- A failed saga: its row is locked by the worker, that of another saga is not. -/
def sampleUpdates : Updates :=
  [("error_json", .text "\x7b\x7d"), ("retryable", .boolean true),
    ("attempts", .text "attempts + 1"), ("last_error_at", .text "NOW()"),
    ("next_retry_at", .null), ("locked_by", .null)]

def sampleRow (idempotencyKey workerId : String) (column : String) : Option Value :=
  [("idempotency_key", Value.text idempotencyKey), ("locked_by", .text workerId),
    ("status", .text "STARTED"), ("attempts", .integer 2)].lookup column

/-- The row of the saga after the update. -/
def sampleFailed (column : String) : Option Value :=
  [("idempotency_key", Value.text "key"), ("status", .text "FAILED"),
    ("updated_at", .timestamp 7), ("error_json", .text "\x7b\x7d"), ("retryable", .boolean true),
    ("attempts", .integer 3), ("last_error_at", .timestamp 7)].lookup column

theorem generated_update_sample :
    (accountCreationSagas (fun _ value => some value) fun _ => true).run 7
        (transitionQuery "key" "worker" .failed sampleUpdates).values
        (transitionQuery "key" "worker" .failed sampleUpdates).text
        [sampleRow "key" "worker", sampleRow "other" "worker"] =
      some ([sampleFailed, sampleRow "other" "worker"], [sampleFailed]) := by
  have hmeans := ((generated_update fun _ => ⟨"0", '0', by decide, by decide⟩).1 "key" "worker"
    .failed sampleUpdates (by decide) (by decide)).2.1 (fun _ value => some value)
    (fun _ => true) 7
  refine (hmeans _ _ _).mpr ⟨by decide, .cons ?_ (.cons ?_ .nil), rfl, ?_⟩
  · rw [if_pos (by decide)]
    refine ⟨rfl, rfl, ?_, ?_⟩
    · simp only [sampleUpdates, List.forall_mem_cons]
      exact ⟨rfl, rfl, rfl, rfl, rfl, rfl, by simp⟩
    · intro column hstatus hupdatedAt hcolumn
      simp only [sampleUpdates, List.map_cons, List.map_nil, List.mem_cons, List.not_mem_nil,
        or_false, not_or, ← ne_eq, ← beq_eq_false_iff_ne] at hstatus hupdatedAt hcolumn
      simp only [sampleFailed, sampleRow, List.lookup_cons, List.lookup_nil, hstatus,
        hupdatedAt, hcolumn]
  · rw [if_neg (by decide)]
  · rfl

end Query

end Modularis.Onboarding.UpdateText
