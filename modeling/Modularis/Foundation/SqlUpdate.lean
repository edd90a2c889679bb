import Mathlib.Data.List.Forall2
import Mathlib.Data.List.Induction
import Mathlib.Data.List.TakeDrop
import Mathlib.Logic.Function.Basic

/-!
`UPDATE` statements of SQL: how their text is read, with placeholders for the values, and
what they do to the rows of a table.  The statements covered set columns to `NULL`, to
`NOW()`, to a placeholder or to a column plus a number in the rows in which columns equal
placeholders; every other text is refused.
-/

namespace Modularis.Foundation.SqlUpdate

section Tokens

/-- What a statement is made of. -/
inductive Token where
  | name (word : String)
  | number (value : Nat)
  | parameter (index : Nat)
  | symbol (c : Char)
  | malformed
deriving DecidableEq, Repr

/-- The characters of names, numbers and parameters. -/
def isWordChar (c : Char) : Bool := c.isAlphanum || c == '_' || c == '$'

/-- The token of a longest run of word characters.  Names and key words are read without
regard to case. -/
def Token.ofWord : List Char → Token
  | '$' :: ds =>
      if ds ≠ [] ∧ ds.all Char.isDigit then .parameter (Nat.ofDigitChars 10 ds 0)
      else .malformed
  | c :: cs =>
      if !c.isDigit then .name (String.ofList ((c :: cs).map Char.toLower))
      else if cs.all Char.isDigit then .number (Nat.ofDigitChars 10 (c :: cs) 0)
      else .malformed
  | [] => .malformed

/-- The word that is still being read is a token, too. -/
def close : List Char × List Token → List Token
  | ([], tokens) => tokens
  | (word, tokens) => Token.ofWord word :: tokens

/-- The word at the front of a text, if it begins with one, and the tokens behind it. -/
def scan : List Char → List Char × List Token
  | [] => ([], [])
  | c :: cs =>
      match scan cs with
      | (word, tokens) =>
          if isWordChar c then (c :: word, tokens)
          else if c.isWhitespace then ([], close (word, tokens))
          else ([], .symbol c :: close (word, tokens))

/-- The tokens of a text; words are read in lower case. -/
def lex (text : List Char) : List Token := close (scan text)

/-- The text does not begin in the middle of a word. -/
def Breaks (text : List Char) : Prop := (scan text).1 = []

theorem breaks_cons {c : Char} (h : isWordChar c = false) (text : List Char) :
    Breaks (c :: text) := by
  rw [Breaks, scan]
  simp only [h, Bool.false_eq_true, if_false]
  split <;> rfl

theorem breaks_append {s : List Char} (h : s.head?.map isWordChar = some false)
    (rest : List Char) : Breaks (s ++ rest) := by
  cases s with
  | nil => cases h
  | cons c s => exact breaks_cons (Option.some.inj h) _

theorem close_append (word : List Char) (tokens tokens' : List Token) :
    close (word, tokens ++ tokens') = close (word, tokens) ++ tokens' := by
  cases word <;> rfl

theorem scan_append (s : List Char) {rest : List Char} (h : Breaks rest) :
    scan (s ++ rest) = ((scan s).1, (scan s).2 ++ lex rest) := by
  induction s with
  | nil =>
      have hword : scan rest = ([], (scan rest).2) := Prod.ext h rfl
      rw [List.nil_append, lex, hword]
      rfl
  | cons c s ih =>
      rw [List.cons_append, scan, scan, ih]
      simp only [close_append]
      split
      · rfl
      · split <;> rfl

theorem lex_append (s : List Char) {rest : List Char} (h : Breaks rest) :
    lex (s ++ rest) = lex s ++ lex rest := by
  rw [lex, scan_append s h, close_append]
  rfl

theorem lex_cons {c : Char} (h : isWordChar c = false) (rest : List Char) :
    lex (c :: rest) = lex [c] ++ lex rest := by
  rw [lex, lex, scan, scan]
  simp only [h, Bool.false_eq_true, if_false]
  split <;> rfl

theorem lex_append_of_last {s : List Char} (h : s.getLast?.map isWordChar ≠ some true)
    (rest : List Char) : lex (s ++ rest) = lex s ++ lex rest := by
  induction s using List.reverseRecOn with
  | nil => rfl
  | append_singleton s c =>
      have hc : isWordChar c = false := by simpa using h
      rw [List.append_assoc, List.singleton_append, lex_append s (breaks_cons hc rest),
        lex_append s (breaks_cons hc []), lex_cons hc, List.append_assoc]

theorem lex_intercalate {separator : List Char}
    (hfirst : separator.head?.map isWordChar = some false)
    (hlast : separator.getLast?.map isWordChar ≠ some true) (items : List (List Char)) :
    lex (separator.intercalate items) = (lex separator).intercalate (items.map lex) := by
  induction items with
  | nil => rfl
  | cons item items ih =>
      cases items with
      | nil => simp
      | cons next items =>
          rw [List.intercalate_cons_cons, List.append_assoc,
            lex_append item (breaks_append hfirst _), lex_append_of_last hlast, ih]
          simp only [List.map_cons, List.intercalate_cons_cons, List.append_assoc]

theorem lex_commas (before after : String) (items : List String)
    (hbefore : before.toList.getLast?.map isWordChar ≠ some true)
    (hafter : after.toList.head?.map isWordChar = some false) :
    lex (before ++ String.intercalate ", " items ++ after).toList =
      lex before.toList ++ ([.symbol ','].intercalate (items.map fun item => lex item.toList) ++
        lex after.toList) := by
  have hcomma : lex ", ".toList = [.symbol ','] := by decide
  rw [String.toList_append, String.toList_append, List.append_assoc,
    lex_append_of_last hbefore, lex_append _ (by simpa using breaks_append hafter []),
    String.toList_intercalate, lex_intercalate (by decide) (by decide), hcomma, List.map_map]
  rfl

theorem scan_word {word : List Char} (h : ∀ c ∈ word, isWordChar c = true) :
    scan word = (word, []) := by
  induction word with
  | nil => rfl
  | cons c word ih =>
      rw [scan, ih fun c hc => h c (List.mem_cons_of_mem _ hc)]
      simp [h c List.mem_cons_self]

theorem isWordChar_of_isDigit {c : Char} (h : c.isDigit = true) : isWordChar c = true := by
  simp [isWordChar, Char.isAlphanum, h]

theorem lex_placeholder (index : Nat) :
    lex ('$' :: Nat.toDigits 10 index) = [.parameter index] := by
  have hdigits : ∀ c ∈ Nat.toDigits 10 index, c.isDigit = true := fun c hc =>
    Nat.isDigit_of_mem_toDigits (by decide) (by decide) hc
  have hword : ∀ c ∈ '$' :: Nat.toDigits 10 index, isWordChar c = true := by
    intro c hc
    rcases List.mem_cons.mp hc with rfl | hc
    · decide
    · exact isWordChar_of_isDigit (hdigits c hc)
  rw [lex, scan_word hword, close, Token.ofWord, if_pos ⟨Nat.toDigits_ne_nil,
    List.all_eq_true.mpr hdigits⟩, Nat.ofDigitChars_ten_toDigits]
  rintro ⟨⟩

/-- The placeholders in a list of tokens. -/
def placeholders (tokens : List Token) : List Nat :=
  tokens.filterMap fun
    | .parameter index => some index
    | _ => none

theorem placeholders_append (tokens tokens' : List Token) :
    placeholders (tokens ++ tokens') = placeholders tokens ++ placeholders tokens' :=
  List.filterMap_append

theorem placeholders_intercalate {separator : List Token}
    (h : placeholders separator = []) (items : List (List Token)) :
    placeholders (separator.intercalate items) = items.flatMap placeholders := by
  induction items with
  | nil => rfl
  | cons item items ih =>
      cases items with
      | nil => simp
      | cons next items =>
          rw [List.intercalate_cons_cons, List.append_assoc, placeholders_append,
            placeholders_append, h, List.nil_append, ih]
          rfl

end Tokens

section Statements

/-- What a column is set to. -/
inductive Expression where
  | null
  | now
  | parameter (index : Nat)
  | sum (column : String) (addend : Nat)
deriving DecidableEq, Repr

/-- `UPDATE table SET column = …, … WHERE column = $n AND … RETURNING *`. -/
structure Update where
  table : String
  assignments : List (String × Expression)
  conditions : List (String × Nat)
deriving DecidableEq, Repr

/-- The key words that cannot stand for a column. -/
def reserved : List String := ["and", "null", "returning", "where"]

/-- The text of a name is read as that name. -/
def IsName (word : String) : Prop :=
  lex word.toList = [.name word] ∧ word ∉ reserved

instance (word : String) : Decidable (IsName word) :=
  inferInstanceAs (Decidable (_ ∧ _))

/-- An expression as the whole of some tokens. -/
def expression : List Token → Option Expression
  | [.name "null"] => some .null
  | [.name "now", .symbol '(', .symbol ')'] => some .now
  | [.parameter index] => some (.parameter index)
  | [.name column, .symbol '+', .number addend] =>
      if column ∈ reserved then none else some (.sum column addend)
  | _ => none

/-- `column = expression`. -/
def assignment : List Token → Option (String × Expression)
  | .name column :: .symbol '=' :: value =>
      if column ∈ reserved then none else (expression value).map (column, ·)
  | _ => none

/-- `column = $n`. -/
def condition : List Token → Option (String × Nat)
  | [.name column, .symbol '=', .parameter index] =>
      if column ∈ reserved then none else some (column, index)
  | _ => none

/-- What stands before and after a key word. -/
def cutAt (word : String) (tokens : List Token) : Option (List Token × List Token) :=
  match tokens.span (· ≠ .name word) with
  | (before, _ :: after) => some (before, after)
  | (_, []) => none

/-- `UPDATE table SET assignments WHERE conditions RETURNING *`, and nothing else. -/
def parse : List Token → Option Update
  | .name "update" :: .name table :: .name "set" :: rest => do
      let (assignments, rest) ← cutAt "where" rest
      let (conditions, rest) ← cutAt "returning" rest
      if rest = [.symbol '*'] then
        let assignments ← (assignments.splitOn (.symbol ',')).mapM assignment
        let conditions ← (conditions.splitOn (.name "and")).mapM condition
        some { table := table, assignments := assignments, conditions := conditions }
      else none
  | _ => none

/-- The columns whose old values an expression reads. -/
def Expression.columns : Expression → List String
  | .sum column _ => [column]
  | _ => []

/-- The text of an expression, as tokens. -/
def Expression.tokens : Expression → List Token
  | .null => [.name "null"]
  | .now => [.name "now", .symbol '(', .symbol ')']
  | .parameter index => [.parameter index]
  | .sum column addend => [.name column, .symbol '+', .number addend]

def assignmentTokens (a : String × Expression) : List Token :=
  .name a.1 :: .symbol '=' :: a.2.tokens

def conditionTokens (c : String × Nat) : List Token :=
  [.name c.1, .symbol '=', .parameter c.2]

/-- The tokens of a statement. -/
def Update.tokens (update : Update) : List Token :=
  [.name "update", .name update.table, .name "set"] ++
    ([.symbol ','].intercalate (update.assignments.map assignmentTokens) ++
      .name "where" :: ([.name "and"].intercalate (update.conditions.map conditionTokens) ++
        [.name "returning", .symbol '*']))

/-- The columns that a statement names. -/
def Update.columns (update : Update) : List String :=
  update.assignments.flatMap (fun a => a.1 :: a.2.columns) ++
    update.conditions.map Prod.fst

theorem mem_of_mem_intercalate {α : Type*} {separator : List α} {items : List (List α)}
    {x : α} (h : x ∈ separator.intercalate items) :
    x ∈ separator ∨ ∃ item ∈ items, x ∈ item := by
  induction items with
  | nil => cases h
  | cons item items ih =>
      cases items with
      | nil => exact .inr ⟨item, List.mem_singleton_self item, by simpa using h⟩
      | cons next items =>
          rw [List.intercalate_cons_cons, List.append_assoc] at h
          rcases List.mem_append.mp h with hitem | h
          · exact .inr ⟨item, List.mem_cons_self, hitem⟩
          · rcases List.mem_append.mp h with hseparator | hrest
            · exact .inl hseparator
            · refine (ih hrest).imp id ?_
              rintro ⟨other, hother, hx⟩
              exact ⟨other, List.mem_cons_of_mem _ hother, hx⟩

theorem cutAt_append {word : String} {before : List Token} (h : .name word ∉ before)
    (after : List Token) :
    cutAt word (before ++ .name word :: after) = some (before, after) := by
  have hbefore : ∀ token ∈ before, decide (token ≠ .name word) = true := by
    intro token htoken
    exact decide_eq_true fun heq => h (heq ▸ htoken)
  rw [cutAt, List.span_eq_takeWhile_dropWhile, List.takeWhile_append_of_pos hbefore,
    List.dropWhile_append_of_pos hbefore]
  simp

@[simp] theorem expression_tokens {e : Expression} (h : ∀ column ∈ e.columns, column ∉ reserved) :
    expression e.tokens = some e := by
  cases e with
  | null => rfl
  | now => rfl
  | parameter index => rfl
  | sum column addend =>
      have hcolumn : column ∉ reserved := h column List.mem_cons_self
      simp [Expression.tokens, expression, hcolumn]

theorem assignment_tokens {a : String × Expression}
    (h : ∀ column ∈ a.1 :: a.2.columns, column ∉ reserved) :
    assignment (assignmentTokens a) = some a := by
  rw [assignmentTokens, assignment, if_neg (h a.1 List.mem_cons_self),
    expression_tokens fun column hcolumn => h column (List.mem_cons_of_mem _ hcolumn)]
  rfl

theorem condition_tokens {c : String × Nat} (h : c.1 ∉ reserved) :
    condition (conditionTokens c) = some c :=
  if_neg h

theorem comma_notMem_assignmentTokens (a : String × Expression) :
    .symbol ',' ∉ assignmentTokens a := by
  obtain ⟨column, e⟩ := a
  cases e <;> simp [assignmentTokens, Expression.tokens]

theorem name_notMem_assignmentTokens {a : String × Expression}
    (h : ∀ column ∈ a.1 :: a.2.columns, column ∉ reserved) :
    .name "where" ∉ assignmentTokens a := by
  intro hmem
  have hwhere : "where" ∈ a.1 :: a.2.columns := by
    obtain ⟨column, e⟩ := a
    cases e <;> simpa [assignmentTokens, Expression.tokens, Expression.columns] using hmem
  exact h _ hwhere (by decide)

theorem name_notMem_conditionTokens {c : String × Nat} {word : String}
    (h : c.1 ∉ reserved) (hword : word ∈ reserved) : .name word ∉ conditionTokens c := by
  intro hmem
  have heq : word = c.1 := by simpa [conditionTokens] using hmem
  exact h (heq ▸ hword)

/-- The parameter that an expression is, if it is one. -/
def Expression.placeholder : Expression → Option Nat
  | .parameter index => some index
  | _ => none

theorem placeholders_assignmentTokens (a : String × Expression) :
    placeholders (assignmentTokens a) = a.2.placeholder.toList := by
  obtain ⟨column, e⟩ := a
  cases e <;> rfl

theorem placeholders_tokens (update : Update) :
    placeholders update.tokens =
      update.assignments.filterMap (fun a => a.2.placeholder) ++
        update.conditions.map Prod.snd := by
  have hset : (update.assignments.map assignmentTokens).flatMap placeholders =
      update.assignments.filterMap fun a => a.2.placeholder := by
    simp only [List.flatMap_map, placeholders_assignmentTokens, List.filterMap_eq_flatMap_toList]
  have hwhere : (update.conditions.map conditionTokens).flatMap placeholders =
      update.conditions.map Prod.snd := by
    rw [List.flatMap_map, List.map_eq_flatMap]
    rfl
  have hbefore : placeholders [.name "update", .name update.table, .name "set"] = [] := rfl
  have hafter : ∀ tokens,
      placeholders (.name "where" :: (tokens ++ [.name "returning", .symbol '*'])) =
        placeholders tokens := fun tokens => by
    rw [← List.singleton_append, placeholders_append, placeholders_append]
    simp [placeholders]
  rw [Update.tokens, placeholders_append, placeholders_append, hbefore, List.nil_append,
    placeholders_intercalate rfl, hset, hafter, placeholders_intercalate rfl, hwhere]

theorem mapM_eq_some {α β : Type*} {f : α → Option β} {xs : List α} {ys : List β} :
    xs.mapM f = some ys ↔ List.Forall₂ (fun x y => f x = some y) xs ys := by
  induction xs generalizing ys with
  | nil => cases ys <;> simp
  | cons x xs ih =>
      simp only [List.mapM_cons, Option.pure_def, Option.bind_eq_bind,
        Option.bind_eq_some_iff, Option.some.injEq]
      constructor
      · rintro ⟨y, hy, rest, hrest, rfl⟩
        exact .cons hy (ih.mp hrest)
      · rintro (_ | ⟨hy, hrest⟩)
        exact ⟨_, hy, _, ih.mpr hrest, rfl⟩

theorem parse_tokens {update : Update} (hassignments : update.assignments ≠ [])
    (hconditions : update.conditions ≠ [])
    (h : ∀ column ∈ update.columns, column ∉ reserved) :
    parse update.tokens = some update := by
  have hset : ∀ a ∈ update.assignments, ∀ column ∈ a.1 :: a.2.columns, column ∉ reserved :=
    fun a ha column hcolumn =>
      h column (List.mem_append_left _ (List.mem_flatMap.mpr ⟨a, ha, hcolumn⟩))
  have hwhere : ∀ c ∈ update.conditions, c.1 ∉ reserved := fun c hc =>
    h c.1 (List.mem_append_right _ (List.mem_map_of_mem hc))
  have hcutSet : .name "where" ∉
      [Token.symbol ','].intercalate (update.assignments.map assignmentTokens) := by
    intro hmem
    rcases mem_of_mem_intercalate hmem with hcomma | ⟨tokens, htokens, hmem⟩
    · simp at hcomma
    · obtain ⟨a, ha, rfl⟩ := List.mem_map.mp htokens
      exact name_notMem_assignmentTokens (hset a ha) hmem
  have hcutWhere : .name "returning" ∉
      [Token.name "and"].intercalate (update.conditions.map conditionTokens) := by
    intro hmem
    rcases mem_of_mem_intercalate hmem with hand | ⟨tokens, htokens, hmem⟩
    · simp at hand
    · obtain ⟨c, hc, rfl⟩ := List.mem_map.mp htokens
      exact name_notMem_conditionTokens (hwhere c hc) (by decide) hmem
  have hsplitSet : ([Token.symbol ','].intercalate
      (update.assignments.map assignmentTokens)).splitOn (.symbol ',') =
      update.assignments.map assignmentTokens := by
    refine List.splitOn_intercalate _ ?_ (by simpa using hassignments)
    intro tokens htokens
    obtain ⟨a, _, rfl⟩ := List.mem_map.mp htokens
    exact comma_notMem_assignmentTokens a
  have hsplitWhere : ([Token.name "and"].intercalate
      (update.conditions.map conditionTokens)).splitOn (.name "and") =
      update.conditions.map conditionTokens := by
    refine List.splitOn_intercalate _ ?_ (by simpa using hconditions)
    intro tokens htokens
    obtain ⟨c, hc, rfl⟩ := List.mem_map.mp htokens
    exact name_notMem_conditionTokens (hwhere c hc) (by decide)
  have hreadSet : (update.assignments.map assignmentTokens).mapM assignment =
      some update.assignments := by
    rw [mapM_eq_some, List.forall₂_map_left_iff, List.forall₂_same]
    exact fun a ha => assignment_tokens (hset a ha)
  have hreadWhere : (update.conditions.map conditionTokens).mapM condition =
      some update.conditions := by
    rw [mapM_eq_some, List.forall₂_map_left_iff, List.forall₂_same]
    exact fun c hc => condition_tokens (hwhere c hc)
  simp only [Update.tokens, List.cons_append, List.nil_append, parse,
    cutAt_append hcutSet, cutAt_append hcutWhere, hsplitSet, hsplitWhere, hreadSet, hreadWhere,
    Option.bind_eq_bind, Option.bind_some, if_true]

end Statements

section Execution

/-- A value of a column or of a parameter. -/
inductive Value where
  | text (value : String)
  | boolean (value : Bool)
  | integer (value : Int)
  | timestamp (value : Int)
deriving DecidableEq, Repr

/-- What a row holds in each column; nothing where that is `NULL`. -/
abbrev Row := String → Option Value

/-- A table.  `convert` is what a column stores if it is given a value, with `none` for an
error, and `accepts` are the constraints on the rows. -/
structure Schema where
  table : String
  columns : List String
  convert : String → Value → Option Value
  accepts : List Row → Bool

/-- The value of an expression in a row; `none` is an error and `some none` is `NULL`. -/
def Expression.eval (now : Int) (parameters : List Value) (row : Row) :
    Expression → Option (Option Value)
  | .null => some none
  | .now => some (some (.timestamp now))
  | .parameter index => (parameters[index - 1]?).map some
  | .sum column addend =>
      match row column with
      | none => some none
      | some (.integer value) => some (some (.integer (value + addend)))
      | some _ => none

variable (schema : Schema) (now : Int) (parameters : List Value)

/-- What a column makes of a value; a null needs no conversion. -/
def Schema.store (column : String) : Option Value → Option (Option Value)
  | none => some none
  | some value => (schema.convert column value).map some

/-- What an assignment puts into its column. -/
def Schema.cell (row : Row) (a : String × Expression) : Option (Option Value) :=
  (a.2.eval now parameters row).bind (schema.store a.1)

/-- Every expression is evaluated in the row as it was. -/
def Schema.assign (row : Row) : List (String × Expression) → Option Row
  | [] => some row
  | a :: rest => do
      let cell ← schema.cell now parameters row a
      let row' ← Schema.assign row rest
      some (Function.update row' a.1 cell)

/-- A comparison with `NULL` does not hold. -/
def Schema.selects (conditions : List (String × Nat)) (row : Row) : Bool :=
  conditions.all fun c =>
    (row c.1).isSome && row c.1 == (parameters[c.2 - 1]?).bind (schema.convert c.1)

/-- The statement at one row: a row that it does not select stays as it is. -/
def Schema.updateRow (update : Update) (row : Row) : Option Row :=
  if schema.selects parameters update.conditions row then
    schema.assign now parameters row update.assignments
  else some row

/-- The statement is about the table, names only columns of it and sets none twice. -/
def Update.Fits (update : Update) : Prop :=
  update.table = schema.table ∧ (∀ column ∈ update.columns, column ∈ schema.columns) ∧
    (update.assignments.map Prod.fst).Nodup

instance (update : Update) : Decidable (update.Fits schema) :=
  inferInstanceAs (Decidable (_ ∧ _))

/-- The rows after the statement and the rows that it returns. -/
def Schema.execute (update : Update) (rows : List Row) : Option (List Row × List Row) :=
  if update.Fits schema then do
    let rows' ← rows.mapM (schema.updateRow now parameters update)
    if schema.accepts rows' then
      some (rows', ((rows.zip rows').filter fun pair =>
        schema.selects parameters update.conditions pair.1).map Prod.snd)
    else none
  else none

/-- Each placeholder has a parameter and each parameter is used. -/
def Bound (used : List Nat) (count : Nat) : Prop :=
  (∀ index ∈ used, index ∈ List.range' 1 count) ∧ ∀ index ∈ List.range' 1 count, index ∈ used

instance (used : List Nat) (count : Nat) : Decidable (Bound used count) :=
  inferInstanceAs (Decidable (_ ∧ _))

/-- Run the text of a statement with parameters. -/
def Schema.run (text : String) (rows : List Row) : Option (List Row × List Row) :=
  let tokens := lex text.toList
  if Bound (placeholders tokens) parameters.length then
    (parse tokens).bind fun update => schema.execute now parameters update rows
  else none

theorem bound_of_perm {used : List Nat} {count : Nat}
    (h : used.Perm (List.range' 1 count)) : Bound used count :=
  ⟨fun _ => h.mem_iff.mp, fun _ => h.mem_iff.mpr⟩

variable {schema now parameters}

/-- The columns that are assigned to hold what the expressions give and all others keep
what they hold. -/
theorem assign_eq_some {row row' : Row} {assignments : List (String × Expression)}
    (hdistinct : (assignments.map Prod.fst).Nodup) :
    schema.assign now parameters row assignments = some row' ↔
      (∀ a ∈ assignments, schema.cell now parameters row a = some (row' a.1)) ∧
      ∀ column ∉ assignments.map Prod.fst, row' column = row column := by
  induction assignments generalizing row' with
  | nil =>
      simp only [Schema.assign, Option.some.injEq]
      constructor
      · rintro rfl
        simp
      · rintro ⟨_, hkeep⟩
        funext column
        exact (hkeep column (by simp)).symm
  | cons a rest ih =>
      rw [List.map_cons, List.nodup_cons] at hdistinct
      simp only [Schema.assign, Option.bind_eq_bind, Option.bind_eq_some_iff,
        Option.some.injEq]
      constructor
      · rintro ⟨cell, hcell, between, hrest, rfl⟩
        obtain ⟨hcells, hkeep⟩ := (ih hdistinct.2).mp hrest
        refine ⟨?_, ?_⟩
        · intro b hb
          rcases List.mem_cons.mp hb with rfl | hb
          · rw [Function.update_self, hcell]
          · have hne : b.1 ≠ a.1 := fun heq =>
              hdistinct.1 (heq ▸ List.mem_map_of_mem hb)
            rw [Function.update_of_ne hne, hcells b hb]
        · intro column hcolumn
          rw [List.map_cons, List.mem_cons, not_or] at hcolumn
          rw [Function.update_of_ne hcolumn.1, hkeep column hcolumn.2]
      · rintro ⟨hcells, hkeep⟩
        have hrest := (@ih (Function.update row' a.1 (row a.1)) hdistinct.2).mpr
          ⟨?_, ?_⟩
        · refine ⟨row' a.1, hcells a List.mem_cons_self, _, hrest, ?_⟩
          rw [Function.update_idem, Function.update_eq_self]
        · intro b hb
          have hne : b.1 ≠ a.1 := fun heq => hdistinct.1 (heq ▸ List.mem_map_of_mem hb)
          rw [Function.update_of_ne hne, hcells b (List.mem_cons_of_mem _ hb)]
        · intro column hcolumn
          by_cases heq : column = a.1
          · rw [heq, Function.update_self]
          · rw [Function.update_of_ne heq]
            exact hkeep column (by simp_all)

/-- The rows of a table that the statement selects are assigned to, the others stay, and
the constraints hold of the result. -/
theorem execute_eq_some {update : Update} {rows rows' returned : List Row} :
    schema.execute now parameters update rows = some (rows', returned) ↔
      update.Fits schema ∧
      List.Forall₂ (fun row row' => schema.updateRow now parameters update row = some row')
        rows rows' ∧
      schema.accepts rows' = true ∧
      returned = ((rows.zip rows').filter fun pair =>
        schema.selects parameters update.conditions pair.1).map Prod.snd := by
  rw [Schema.execute]
  split
  · rename_i hfits
    simp only [Option.bind_eq_bind, Option.bind_eq_some_iff, mapM_eq_some]
    constructor
    · rintro ⟨result, hrows, hresult⟩
      split at hresult
      · rename_i haccepts
        obtain ⟨rfl, rfl⟩ := Prod.mk.inj (Option.some.inj hresult)
        exact ⟨hfits, hrows, haccepts, rfl⟩
      · cases hresult
    · rintro ⟨_, hrows, haccepts, rfl⟩
      exact ⟨rows', hrows, if_pos haccepts⟩
  · rename_i hfits
    exact ⟨fun h => absurd h (by simp), fun h => absurd h.1 hfits⟩

end Execution

end Modularis.Foundation.SqlUpdate
