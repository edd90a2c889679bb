import Mathlib.Data.List.Sort
import Mathlib.Logic.Function.Basic

/-!
Tables with a primary key.  A table lists its keys in insertion order and
carries the proofs that the keys are distinct, that exactly the listed keys
have a row, and that every row sits under its own key.
-/

namespace Modularis.Foundation

universe u v

/-- A table whose rows are identified by `key`. -/
structure Table {κ : Type u} {ρ : Type v} (key : ρ → κ) where
  keys : List κ
  row : κ → Option ρ
  nodup_keys : keys.Nodup
  mem_keys : ∀ k, k ∈ keys ↔ (row k).isSome
  key_row : ∀ k r, row k = some r → key r = k

namespace Table

variable {κ : Type u} {ρ : Type v} {key : ρ → κ}

/-- The table without rows. -/
def empty : Table key where
  keys := []
  row := fun _ => none
  nodup_keys := List.nodup_nil
  mem_keys := by simp
  key_row := by simp

@[simp] theorem row_empty (k : κ) : (empty : Table key).row k = none := rfl

/-- The rows in insertion order. -/
def rows (t : Table key) : List ρ := t.keys.filterMap t.row

theorem mem_rows_iff (t : Table key) (r : ρ) :
    r ∈ t.rows ↔ t.row (key r) = some r := by
  simp only [rows, List.mem_filterMap]
  constructor
  · rintro ⟨k, _, hk⟩
    rw [t.key_row k r hk]
    exact hk
  · intro hr
    exact ⟨key r, (t.mem_keys _).mpr (by simp [hr]), hr⟩

theorem map_key_rows (t : Table key) : t.rows.map key = t.keys := by
  have hsome : ∀ k ∈ t.keys, Option.map key (t.row k) = some k := by
    intro k hk
    obtain ⟨r, hr⟩ := Option.isSome_iff_exists.mp ((t.mem_keys k).mp hk)
    simp [hr, t.key_row k r hr]
  rw [rows, List.map_filterMap, List.filterMap_congr hsome, List.filterMap_some]

theorem mem_rows_of_row {t : Table key} {k : κ} {r : ρ} (h : t.row k = some r) :
    r ∈ t.rows := by
  rw [mem_rows_iff, t.key_row k r h]
  exact h

theorem eq_of_key {t : Table key} {r s : ρ} (hr : r ∈ t.rows) (hs : s ∈ t.rows)
    (hkey : key r = key s) : r = s := by
  rw [mem_rows_iff] at hr hs
  rw [hkey, hs] at hr
  exact (Option.some.inj hr).symm

theorem nodup_column {α : Type*} {t : Table key} {column : ρ → α}
    (hunique : ∀ r ∈ t.rows, ∀ s ∈ t.rows, column r = column s → r = s) :
    (t.rows.map column).Nodup := by
  have hkeys : (t.rows.map key).Nodup := t.map_key_rows ▸ t.nodup_keys
  exact (List.Nodup.of_map key hkeys).map_on hunique

theorem length_rows (t : Table key) : t.rows.length = t.keys.length := by
  rw [← t.map_key_rows, List.length_map]

/-- The first `limit` rows that meet `wanted`, in the order of `le`. -/
def select (t : Table key) (wanted : ρ → Bool) (le : ρ → ρ → Prop)
    [DecidableRel le] (limit : Nat) : List ρ :=
  ((t.rows.filter wanted).insertionSort le).take limit

section Select

variable (t : Table key) (wanted : ρ → Bool) (le : ρ → ρ → Prop)
  [DecidableRel le]

theorem mem_of_mem_select {limit : Nat} {r : ρ}
    (h : r ∈ t.select wanted le limit) :
    t.row (key r) = some r ∧ wanted r = true := by
  have hsorted := List.mem_of_mem_take h
  rw [List.mem_insertionSort, List.mem_filter, t.mem_rows_iff] at hsorted
  exact hsorted

theorem nodup_select (limit : Nat) :
    ((t.select wanted le limit).map key).Nodup := by
  have hall : (t.rows.map key).Nodup := t.map_key_rows ▸ t.nodup_keys
  have hfilter : ((t.rows.filter wanted).map key).Nodup :=
    hall.sublist (List.filter_sublist.map key)
  have hsort : (((t.rows.filter wanted).insertionSort le).map key).Nodup :=
    (((List.perm_insertionSort le _).map key).nodup_iff).mpr hfilter
  exact hsort.sublist ((List.take_sublist _ _).map key)

theorem mem_select_of_le {limit : Nat} {r : ρ} (hlimit : t.keys.length ≤ limit)
    (hrow : t.row (key r) = some r) (hwanted : wanted r = true) :
    r ∈ t.select wanted le limit := by
  have hlength : ((t.rows.filter wanted).insertionSort le).length ≤ limit :=
    calc
      _ = (t.rows.filter wanted).length := List.length_insertionSort _ _
      _ ≤ t.rows.length := List.length_filter_le _ _
      _ ≤ limit := t.length_rows ▸ hlimit
  rw [select, List.take_of_length_le hlength, List.mem_insertionSort,
    List.mem_filter, t.mem_rows_iff]
  exact ⟨hrow, hwanted⟩

end Select

/-- Delete the rows that are not to be kept. -/
def restrict (t : Table key) (keep : ρ → Bool) : Table key where
  keys := t.keys.filter fun k => ((t.row k).filter keep).isSome
  row := fun k => (t.row k).filter keep
  nodup_keys := t.nodup_keys.filter _
  mem_keys := by
    intro k
    rw [List.mem_filter, t.mem_keys]
    cases t.row k <;> simp
  key_row := by
    intro k r hr
    exact t.key_row k r (Option.filter_eq_some_iff.mp hr).1

theorem row_restrict (t : Table key) (keep : ρ → Bool) (k : κ) :
    (t.restrict keep).row k = (t.row k).filter keep := rfl

theorem mem_rows_restrict_iff {t : Table key} {keep : ρ → Bool} {r : ρ} :
    r ∈ (t.restrict keep).rows ↔ r ∈ t.rows ∧ keep r = true := by
  rw [mem_rows_iff, mem_rows_iff, row_restrict, Option.filter_eq_some_iff]

theorem restrict_congr {t : Table key} {keep keep' : ρ → Bool}
    (h : ∀ k r, t.row k = some r → keep r = keep' r) :
    t.restrict keep = t.restrict keep' := by
  have hrow : ∀ k, (t.row k).filter keep = (t.row k).filter keep' := by
    intro k
    cases hk : t.row k with
    | none => rfl
    | some r => rw [Option.filter_some, Option.filter_some, h k r hk]
  unfold restrict
  simp only [hrow]

variable [DecidableEq κ]

theorem find?_key {rs : List ρ} (hnodup : (rs.map key).Nodup) {r : ρ}
    (hr : r ∈ rs) : rs.find? (fun s => key s = key r) = some r := by
  induction rs with
  | nil => cases hr
  | cons s rs ih =>
      obtain ⟨hnew, hrest⟩ := List.nodup_cons.mp hnodup
      rcases List.mem_cons.mp hr with rfl | hmem
      · simp
      · have hother : key s ≠ key r :=
          fun hsame => hnew (hsame ▸ List.mem_map_of_mem hmem)
        simpa [hother] using ih hrest hmem

/-- The rows of a table that has grown are the old ones and those that are new in it. -/
theorem row_eq_or_find? {t t' : Table key} (hgrown : t.rows ⊆ t'.rows) (k : κ) :
    t'.row k = (t.row k).or
      ((t'.rows.filter fun r => (t.row (key r)).isNone).find? fun r => key r = k) := by
  have hnodup : ((t'.rows.filter fun r => (t.row (key r)).isNone).map key).Nodup := by
    have hall : (t'.rows.map key).Nodup := t'.map_key_rows ▸ t'.nodup_keys
    exact hall.sublist (List.filter_sublist.map key)
  cases hold : t.row k with
  | some r =>
      have hmem := hgrown (mem_rows_of_row hold)
      rw [mem_rows_iff, t.key_row k r hold] at hmem
      rw [hmem, Option.some_or]
  | none =>
      rw [Option.none_or]
      cases hnew : t'.row k with
      | some r =>
          have hkey := t'.key_row k r hnew
          have hmem : r ∈ t'.rows.filter fun r => (t.row (key r)).isNone := by
            simp [mem_rows_of_row hnew, hkey, hold]
          have hfound := find?_key hnodup hmem
          simp only [hkey] at hfound
          rw [hfound]
      | none =>
          refine (List.find?_eq_none.mpr fun r hr hkey => ?_).symm
          have hrow := (t'.mem_rows_iff r).mp (List.mem_filter.mp hr).1
          rw [of_decide_eq_true hkey, hnew] at hrow
          cases hrow

/-- Insert a row unless its key is taken. -/
def insertIfAbsent (t : Table key) (r : ρ) : Table key :=
  if h : (t.row (key r)).isSome then t
  else
    { keys := t.keys ++ [key r]
      row := Function.update t.row (key r) (some r)
      nodup_keys := by
        have hnew : key r ∉ t.keys := fun hk => h ((t.mem_keys _).mp hk)
        exact List.nodup_append.mpr ⟨t.nodup_keys, List.nodup_singleton _, by
          intro a ha b hb
          rintro rfl
          exact hnew (List.mem_singleton.mp hb ▸ ha)⟩
      mem_keys := by
        intro k
        by_cases hk : k = key r
        · simp [hk]
        · simp [hk, t.mem_keys]
      key_row := by
        intro k s hs
        by_cases hk : k = key r
        · subst hk
          rw [Function.update_self, Option.some.injEq] at hs
          rw [hs]
        · rw [Function.update_of_ne hk] at hs
          exact t.key_row k s hs }

theorem insertIfAbsent_of_some {t : Table key} {r s : ρ}
    (h : t.row (key r) = some s) : t.insertIfAbsent r = t := by
  simp [insertIfAbsent, h]

theorem row_insertIfAbsent_of_none {t : Table key} {r : ρ}
    (h : t.row (key r) = none) (k : κ) :
    (t.insertIfAbsent r).row k = if k = key r then some r else t.row k := by
  simp [insertIfAbsent, h, Function.update_apply]

theorem row_insertIfAbsent (t : Table key) (r : ρ) (k : κ) :
    (t.insertIfAbsent r).row k =
      if k = key r then some ((t.row (key r)).getD r) else t.row k := by
  cases hr : t.row (key r) with
  | none => exact row_insertIfAbsent_of_none hr k
  | some s =>
      rw [insertIfAbsent_of_some hr]
      by_cases hk : k = key r
      · rw [if_pos hk, hk, hr]
        rfl
      · rw [if_neg hk]

theorem row_insertIfAbsent_iff {t : Table key} {r : ρ} (hnew : t.row (key r) = none)
    {k : κ} {s : ρ} : (t.insertIfAbsent r).row k = some s ↔
      (k = key r ∧ s = r) ∨ t.row k = some s := by
  rw [row_insertIfAbsent_of_none hnew]
  by_cases hk : k = key r
  · subst hk
    simp [hnew, eq_comm]
  · simp [hk]

theorem mem_rows_insertIfAbsent_iff {t : Table key} {r : ρ}
    (hnew : t.row (key r) = none) {s : ρ} :
    s ∈ (t.insertIfAbsent r).rows ↔ s = r ∨ s ∈ t.rows := by
  rw [mem_rows_iff, mem_rows_iff, row_insertIfAbsent_iff hnew]
  constructor
  · rintro (⟨_, rfl⟩ | h)
    · exact .inl rfl
    · exact .inr h
  · rintro (rfl | h)
    · exact .inl ⟨rfl, rfl⟩
    · exact .inr h

theorem unique_insertIfAbsent {α : Type*} {t : Table key} {r : ρ} (column : ρ → α)
    (hnew : t.row (key r) = none) (hvalue : ∀ s ∈ t.rows, column s ≠ column r)
    (hold : ∀ a ∈ t.rows, ∀ b ∈ t.rows, column a = column b → a = b) :
    ∀ a ∈ (t.insertIfAbsent r).rows, ∀ b ∈ (t.insertIfAbsent r).rows,
      column a = column b → a = b := by
  intro a ha b hb hsame
  rw [mem_rows_insertIfAbsent_iff hnew] at ha hb
  rcases ha with rfl | ha <;> rcases hb with rfl | hb
  · rfl
  · exact absurd hsame.symm (hvalue b hb)
  · exact absurd hsame (hvalue a ha)
  · exact hold a ha b hb hsame

theorem row_insertIfAbsent_of_row {t : Table key} (r : ρ) {k : κ} {s : ρ}
    (h : t.row k = some s) : (t.insertIfAbsent r).row k = some s := by
  cases hr : t.row (key r) with
  | some _ => rwa [insertIfAbsent_of_some hr]
  | none =>
      rw [row_insertIfAbsent_of_none hr, if_neg, h]
      rintro rfl
      rw [hr] at h
      cases h

theorem row_of_insertIfAbsent {t : Table key} {r s : ρ} {k : κ}
    (h : (t.insertIfAbsent r).row k = some s) : s = r ∨ t.row k = some s := by
  cases hr : t.row (key r) with
  | some _ => exact .inr (insertIfAbsent_of_some hr ▸ h)
  | none =>
      rw [row_insertIfAbsent_of_none hr] at h
      split at h
      · exact .inl (Option.some.inj h).symm
      · exact .inr h

theorem rows_insertIfAbsent_of_none {t : Table key} {r : ρ}
    (h : t.row (key r) = none) : (t.insertIfAbsent r).rows = t.rows ++ [r] := by
  have hnew : key r ∉ t.keys := by
    rw [t.mem_keys, h]
    exact Bool.false_ne_true
  have hold : ∀ k ∈ t.keys, (t.insertIfAbsent r).row k = t.row k := by
    intro k hk
    rw [row_insertIfAbsent_of_none h, if_neg]
    rintro rfl
    exact hnew hk
  have hkeys : (t.insertIfAbsent r).keys = t.keys ++ [key r] := by
    simp [insertIfAbsent, h]
  have hself : (t.insertIfAbsent r).row (key r) = some r := by
    rw [row_insertIfAbsent_of_none h, if_pos rfl]
  rw [rows, rows, hkeys, List.filterMap_append, List.filterMap_congr hold]
  simp [hself]

/-- Rewrite the rows under the listed keys by a function that keeps keys. -/
def modifyAll (t : Table key) (ks : List κ) (f : ρ → ρ)
    (hf : ∀ r, key (f r) = key r) : Table key where
  keys := t.keys
  row := fun j => if j ∈ ks then (t.row j).map f else t.row j
  nodup_keys := t.nodup_keys
  mem_keys := by
    intro j
    rw [t.mem_keys]
    split <;> simp
  key_row := by
    intro j s hs
    split at hs
    · obtain ⟨r, hr, rfl⟩ := Option.map_eq_some_iff.mp hs
      rw [hf, t.key_row j r hr]
    · exact t.key_row j s hs

theorem row_modifyAll (t : Table key) (ks : List κ) (f : ρ → ρ)
    (hf : ∀ r, key (f r) = key r) (j : κ) :
    (t.modifyAll ks f hf).row j =
      if j ∈ ks then (t.row j).map f else t.row j := rfl

/-- Rewrite the row under one key. -/
def modify (t : Table key) (k : κ) (f : ρ → ρ)
    (hf : ∀ r, key (f r) = key r) : Table key :=
  t.modifyAll [k] f hf

theorem row_modify (t : Table key) (k : κ) (f : ρ → ρ)
    (hf : ∀ r, key (f r) = key r) (j : κ) :
    (t.modify k f hf).row j = if j = k then (t.row j).map f else t.row j := by
  simp [modify, row_modifyAll]

theorem row_modify_of_some {t : Table key} {k : κ} {r : ρ} (h : t.row k = some r)
    (f : ρ → ρ) (hf : ∀ r, key (f r) = key r) (j : κ) :
    (t.modify k f hf).row j = if j = k then some (f r) else t.row j := by
  rw [row_modify]
  by_cases hj : j = k
  · rw [if_pos hj, if_pos hj, hj, h, Option.map_some]
  · rw [if_neg hj, if_neg hj]

theorem rows_modify (t : Table key) (k : κ) (f : ρ → ρ) (hf : ∀ r, key (f r) = key r) :
    (t.modify k f hf).rows = t.rows.map fun r => if key r = k then f r else r := by
  rw [rows, rows, List.map_filterMap]
  refine List.filterMap_congr fun j _ => ?_
  rw [row_modify]
  cases hrow : t.row j with
  | none => simp
  | some r =>
      rw [Option.map_some, Option.map_some, t.key_row j r hrow]
      split <;> rfl

end Table

end Modularis.Foundation
