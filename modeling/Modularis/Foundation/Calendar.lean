import Mathlib.Algebra.Order.Ring.Int
import Mathlib.Data.List.Range

namespace Modularis.Foundation.Calendar

/-- The Gregorian rule. -/
def IsLeap (year : Int) : Prop :=
  year % 4 = 0 ∧ (year % 100 ≠ 0 ∨ year % 400 = 0)

instance (year : Int) : Decidable (IsLeap year) :=
  inferInstanceAs (Decidable (_ ∧ _))

/-- The number of days before 1 January. -/
def daysBeforeYear (year : Int) : Int :=
  365 * year + (year + 3) / 4 - (year + 99) / 100 + (year + 399) / 400

def daysInYear (year : Int) : Int :=
  if IsLeap year then 366 else 365

theorem daysBeforeYear_succ (year : Int) :
    daysBeforeYear (year + 1) = daysBeforeYear year + daysInYear year := by
  unfold daysBeforeYear daysInYear
  split
  · rename_i hleap
    unfold IsLeap at hleap
    omega
  · rename_i hleap
    unfold IsLeap at hleap
    omega

/-- The year of a day.  The first estimate exceeds it by at most two. -/
def yearOfDay (day : Int) : Int :=
  let estimate := 400 * day / 146097 + 1
  if daysBeforeYear estimate ≤ day then estimate
  else if daysBeforeYear (estimate - 1) ≤ day then estimate - 1
  else estimate - 2

theorem yearOfDay_spec (day : Int) :
    daysBeforeYear (yearOfDay day) ≤ day ∧
      day < daysBeforeYear (yearOfDay day + 1) := by
  unfold yearOfDay
  simp only
  split
  · rename_i h
    refine ⟨h, ?_⟩
    unfold daysBeforeYear
    omega
  · split
    · rename_i hover h
      refine ⟨h, ?_⟩
      simpa using hover
    · rename_i _ hover
      constructor
      · unfold daysBeforeYear
        omega
      · rw [show 400 * day / 146097 + 1 - 2 + 1 = 400 * day / 146097 + 1 - 1 by
          omega]
        omega

theorem yearDay_lt (day : Int) :
    (day - daysBeforeYear (yearOfDay day)).toNat <
      365 + (decide (IsLeap (yearOfDay day))).toNat := by
  obtain ⟨hfirst, hlast⟩ := yearOfDay_spec day
  rw [daysBeforeYear_succ, daysInYear] at hlast
  by_cases hleap : IsLeap (yearOfDay day)
  · rw [if_pos hleap] at hlast
    simp only [hleap, decide_true, Bool.toNat_true]
    omega
  · rw [if_neg hleap] at hlast
    simp only [hleap, decide_false, Bool.toNat_false]
    omega

/-- The number of days before the first of a month, counted from 1 January. -/
def daysBeforeMonth (leap : Bool) : Nat → Nat
  | 0 | 1 => 0
  | 2 => 31
  | 3 => 59 + leap.toNat
  | 4 => 90 + leap.toNat
  | 5 => 120 + leap.toNat
  | 6 => 151 + leap.toNat
  | 7 => 181 + leap.toNat
  | 8 => 212 + leap.toNat
  | 9 => 243 + leap.toNat
  | 10 => 273 + leap.toNat
  | 11 => 304 + leap.toNat
  | 12 => 334 + leap.toNat
  | _ => 365 + leap.toNat

/-- The days of a month, counted from 1. -/
def daysInMonth (leap : Bool) (month : Nat) : Nat :=
  daysBeforeMonth leap (month + 1) - daysBeforeMonth leap month

/-- The last of the first `month` months that has begun by a day of the year. -/
def begunMonth (leap : Bool) (yearDay : Nat) : Nat → Nat
  | 0 => 0
  | month + 1 =>
      if daysBeforeMonth leap (month + 1) ≤ yearDay then month + 1
      else begunMonth leap yearDay month

theorem begunMonth_spec {leap : Bool} {yearDay month : Nat}
    (h : yearDay < daysBeforeMonth leap (month + 1)) :
    1 ≤ begunMonth leap yearDay month ∧ begunMonth leap yearDay month ≤ month ∧
      daysBeforeMonth leap (begunMonth leap yearDay month) ≤ yearDay ∧
      yearDay < daysBeforeMonth leap (begunMonth leap yearDay month + 1) := by
  induction month with
  | zero => exact absurd h (Nat.not_lt_zero yearDay)
  | succ month ih =>
      rw [begunMonth]
      split
      · rename_i hbegun
        exact ⟨Nat.le_add_left 1 month, le_rfl, hbegun, h⟩
      · rename_i hbegun
        obtain ⟨hone, hle, hfirst, hlast⟩ := ih (not_le.mp hbegun)
        exact ⟨hone, hle.trans (Nat.le_succ month), hfirst, hlast⟩

/-- A date of the calendar; months and days count from 1. -/
structure Date where
  year : Int
  month : Nat
  day : Nat
deriving DecidableEq, Repr

/-- The date exists. -/
def Date.Valid (date : Date) : Prop :=
  1 ≤ date.month ∧ date.month ≤ 12 ∧ 1 ≤ date.day ∧
    date.day ≤ daysInMonth (decide (IsLeap date.year)) date.month

instance (date : Date) : Decidable date.Valid :=
  inferInstanceAs (Decidable (_ ∧ _))

/-- The day of a date, counted from 1 January of the year 0. -/
def dayOfDate (date : Date) : Int :=
  daysBeforeYear date.year +
    daysBeforeMonth (decide (IsLeap date.year)) date.month + (date.day - 1)

/-- The date of a day: its year first, then the last month that has begun by it. -/
def dateOfDay (day : Int) : Date :=
  let year := yearOfDay day
  let leap := decide (IsLeap year)
  let yearDay := (day - daysBeforeYear year).toNat
  let month := begunMonth leap yearDay 12
  { year := year
    month := month
    day := yearDay - daysBeforeMonth leap month + 1 }

theorem month_spec (day : Int) :
    1 ≤ (dateOfDay day).month ∧ (dateOfDay day).month ≤ 12 ∧
      daysBeforeMonth (decide (IsLeap (yearOfDay day))) (dateOfDay day).month ≤
        (day - daysBeforeYear (yearOfDay day)).toNat ∧
      (day - daysBeforeYear (yearOfDay day)).toNat <
        daysBeforeMonth (decide (IsLeap (yearOfDay day)))
          ((dateOfDay day).month + 1) :=
  begunMonth_spec (yearDay_lt day)

theorem dayOfDate_dateOfDay (day : Int) : dayOfDate (dateOfDay day) = day := by
  obtain ⟨_, _, hfirst, _⟩ := month_spec day
  have hyear := (yearOfDay_spec day).1
  change daysBeforeYear (yearOfDay day) +
    (daysBeforeMonth (decide (IsLeap (yearOfDay day))) (dateOfDay day).month : Int) +
    (((day - daysBeforeYear (yearOfDay day)).toNat -
      daysBeforeMonth (decide (IsLeap (yearOfDay day))) (dateOfDay day).month +
        1 : Nat) - 1) = day
  omega

theorem valid_dateOfDay (day : Int) : (dateOfDay day).Valid := by
  obtain ⟨hone, htwelve, hfirst, hlast⟩ := month_spec day
  refine ⟨hone, htwelve, Nat.le_add_left 1 _, ?_⟩
  change (day - daysBeforeYear (yearOfDay day)).toNat -
      daysBeforeMonth (decide (IsLeap (yearOfDay day))) (dateOfDay day).month + 1 ≤
    daysBeforeMonth (decide (IsLeap (yearOfDay day))) ((dateOfDay day).month + 1) -
      daysBeforeMonth (decide (IsLeap (yearOfDay day))) (dateOfDay day).month
  omega

theorem daysInMonth_le : ∀ leap, ∀ month < 13, daysInMonth leap month ≤ 31 := by
  decide

theorem Date.Valid.day_le {date : Date} (h : date.Valid) : date.day ≤ 31 :=
  h.2.2.2.trans (daysInMonth_le _ _ (Nat.lt_succ_of_le h.2.1))

/-- 1 January 1970. -/
def epoch : Int := daysBeforeYear 1970

example : dateOfDay (epoch + 20000) = { year := 2024, month := 10, day := 4 } := by
  decide

end Modularis.Foundation.Calendar
