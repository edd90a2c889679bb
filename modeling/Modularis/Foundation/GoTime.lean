import Modularis.Foundation.Calendar
import Modularis.Foundation.Decimal
import Modularis.Foundation.GoInt

namespace Modularis.Foundation.GoTime

open Modularis.Foundation.Calendar
open Modularis.Foundation.Decimal
open Modularis.Foundation.GoInt

/-- `time.Second`. -/
def second : Int := 1000000000

/-- `time.Minute`. -/
def minute : Int := 60 * second

def day : Int := 86400 * second

/-- `t.Sub(u)` saturates. -/
def sub (t u : Int) : Int := max minInt64 (min maxInt64 (t - u))

/-- The seconds from the year 1 to 1970. -/
def unixToInternal : Int := 62135596800

/-- `time.Unix(seconds, 0)`, which counts the seconds from the year 1. -/
def unix (seconds : Int) : Int :=
  second * (wrapInt64 (seconds + unixToInternal) - unixToInternal)

/-- `t.Unix()`. -/
def unixSeconds (t : Int) : Int := wrapInt64 (t / second)

/-- `Time.Year` in UTC. Times are nanoseconds since 1970. -/
def year (t : Int) : Int := (dateOfDay (epoch + t / day)).year

/-- `appendInt` of package `time`. -/
def appendInt (x : Int) (width : Nat) : List Char :=
  (if x < 0 then ['-'] else []) ++
    digits (max width (Nat.log 10 x.natAbs + 1)) x.natAbs

/-- The fraction of a second without its trailing zeros, and without the point when there
is none. -/
def formatFraction (nanosecond : Nat) : List Char :=
  if nanosecond = 0 then [] else '.' :: trimZeros (digits 9 nanosecond)

/-- The `2006-01-02` of a layout. -/
def formatDate (date : Date) : List Char :=
  appendInt date.year 4 ++ '-' :: digits 2 date.month ++ '-' :: digits 2 date.day

/-- `clock` are the nanoseconds since midnight. -/
def formatClock (clock : Nat) : List Char :=
  digits 2 (clock / 3600000000000) ++ ':' :: digits 2 (clock / 60000000000 % 60) ++
    ':' :: digits 2 (clock / 1000000000 % 60) ++
    formatFraction (clock % 1000000000)

/-- `t.UTC().Format(time.RFC3339Nano)`. -/
def formatRFC3339Nano (t : Int) : String :=
  String.ofList (formatDate (dateOfDay (epoch + t / day)) ++
    'T' :: formatClock (t % day).toNat ++ ['Z'])

/-- One or, if `fixed`, exactly two digits. -/
def getnum (fixed : Bool) : List Char → Option (Nat × List Char)
  | [] => none
  | c :: s =>
      if c.isDigit then
        match s with
        | d :: s' =>
            if d.isDigit then some (number [c, d], s')
            else if fixed then none
            else some (number [c], s)
        | [] => if fixed then none else some (number [c], [])
      else none

/-- A field of two digits that is less than `bound`. -/
def getnumBelow (fixed : Bool) (bound : Nat) (s : List Char) :
    Option (Nat × List Char) := do
  let (n, s) ← getnum fixed s
  if n < bound then some (n, s) else none

/-- The year of a layout, which has four digits. -/
def getYear (s : List Char) : Option (Int × List Char) :=
  if (s.take 4).length = 4 ∧ (s.take 4).all Char.isDigit then
    some (number (s.take 4), s.drop 4)
  else none

/-- One character that must stand there. -/
def skip (c : Char) : List Char → Option (List Char)
  | d :: s => if d = c then some s else none
  | [] => none

/-- A fraction of a second, which may be missing, in nanoseconds. -/
def getFraction : List Char → Nat × List Char
  | c :: d :: s =>
      if (c = '.' ∨ c = ',') ∧ d.isDigit then
        (scaled 9 ((d :: s).takeWhile Char.isDigit),
          (d :: s).dropWhile Char.isDigit)
      else (0, c :: d :: s)
  | s => (0, s)

/-- The date that begins a text, with what follows it. -/
def getDate (s : List Char) : Option (Date × List Char) := do
  let (year, s) ← getYear s
  let s ← skip '-' s
  let (month, s) ← getnum true s
  let s ← skip '-' s
  let (day, s) ← getnum true s
  some ({ year := year, month := month, day := day }, s)

/-- The nanoseconds since midnight. -/
def getClock (s : List Char) : Option (Nat × List Char) := do
  let (hour, s) ← getnumBelow false 24 s
  let s ← skip ':' s
  let (min, s) ← getnumBelow true 60 s
  let s ← skip ':' s
  let (sec, s) ← getnumBelow true 60 s
  let (nsec, s) := getFraction s
  some (((hour * 60 + min) * 60 + sec) * 1000000000 + nsec, s)

/-- The offset of the zone in seconds. -/
def getZone : List Char → Option (Int × List Char)
  | 'Z' :: s => some (0, s)
  | sign :: h₁ :: h₂ :: ':' :: m₁ :: m₂ :: s =>
      if [h₁, h₂, m₁, m₂].all Char.isDigit ∧ number [h₁, h₂] ≤ 24 ∧
          number [m₁, m₂] ≤ 60 then
        let offset : Int := (number [h₁, h₂] * 60 + number [m₁, m₂]) * 60
        if sign = '+' then some (offset, s)
        else if sign = '-' then some (-offset, s)
        else none
      else none
  | _ => none

/-- `time.Parse(time.RFC3339Nano, value)`, where it succeeds. -/
def parseRFC3339Nano (value : String) : Option Int := do
  let (date, s) ← getDate value.toList
  let s ← skip 'T' s
  let (clock, s) ← getClock s
  let (offset, s) ← getZone s
  if s = [] ∧ date.Valid then
    some ((dayOfDate date - epoch) * day + clock - offset * second)
  else none

theorem skip_cons (c : Char) (s : List Char) : skip c (c :: s) = some s :=
  if_pos rfl

theorem getYear_digits {n : Nat} (h : n < 10 ^ 4) (s : List Char) :
    getYear (digits 4 n ++ s) = some ((n : Int), s) := by
  have htake : (digits 4 n ++ s).take 4 = digits 4 n := by
    rw [List.take_append_of_le_length (by simp)]
    exact List.take_of_length_le (by simp)
  have hdrop : (digits 4 n ++ s).drop 4 = s := by
    rw [List.drop_append_of_le_length (by simp),
      List.drop_of_length_le (by simp), List.nil_append]
  have hall : (digits 4 n).all Char.isDigit = true :=
    List.all_eq_true.mpr fun _ => isDigit_of_mem_digits
  rw [getYear, htake, hdrop, if_pos ⟨length_digits 4 n, hall⟩, number_digits h]

theorem getnum_digits (fixed : Bool) {n : Nat} (h : n < 100) (s : List Char) :
    getnum fixed (digits 2 n ++ s) = some (n, s) := by
  have hfirst := isDigit_digitChar (Nat.mod_lt (n / 10) (show 10 > 0 by decide))
  have hsecond := isDigit_digitChar (Nat.mod_lt n (show 10 > 0 by decide))
  have hnumber := number_digits (show n < 10 ^ 2 from h)
  rw [digits_two] at hnumber ⊢
  simp only [List.cons_append, List.nil_append, getnum, hfirst, hsecond,
    if_true, hnumber]

theorem getnumBelow_digits (fixed : Bool) {n bound : Nat} (h : n < bound)
    (hbound : bound ≤ 100) (s : List Char) :
    getnumBelow fixed bound (digits 2 n ++ s) = some (n, s) := by
  rw [getnumBelow, getnum_digits fixed (h.trans_le hbound)]
  exact if_pos h

theorem getFraction_formatFraction {n : Nat} (h : n < 10 ^ 9) :
    getFraction (formatFraction n ++ ['Z']) = (n, ['Z']) := by
  rw [formatFraction]
  split
  · rename_i hzero
    rw [hzero]
    rfl
  · rename_i hne
    have hnumber := number_digits h
    have hdigits : ∀ c ∈ trimZeros (digits 9 n), c.isDigit = true :=
      fun c hc => isDigit_of_mem_trimZeros (fun _ => isDigit_of_mem_digits) hc
    have hvalue : scaled 9 (trimZeros (digits 9 n)) = n := by
      have hscaled := scaled_trimZeros (digits 9 n)
      rwa [length_digits, hnumber] at hscaled
    obtain ⟨d, ds, hcons⟩ := List.exists_cons_of_ne_nil
      (trimZeros_ne_nil (hnumber ▸ hne))
    have htake : (d :: (ds ++ ['Z'])).takeWhile Char.isDigit =
        trimZeros (digits 9 n) := by
      rw [← List.cons_append, ← hcons, List.takeWhile_append_of_pos hdigits]
      simp
    have hdrop : (d :: (ds ++ ['Z'])).dropWhile Char.isDigit = ['Z'] := by
      rw [← List.cons_append, ← hcons, List.dropWhile_append_of_pos hdigits]
      rfl
    have hd : d.isDigit = true := hdigits d (hcons ▸ List.mem_cons_self)
    rw [hcons, List.cons_append, List.cons_append, getFraction,
      if_pos ⟨.inl rfl, hd⟩, htake, hdrop, hvalue]

theorem appendInt_natCast {n width : Nat} (h : n < 10 ^ width)
    (hwidth : width ≠ 0) : appendInt n width = digits width n := by
  have hlog : Nat.log 10 n + 1 ≤ width := Nat.log_lt_of_lt_pow' hwidth h
  rw [appendInt, if_neg (not_lt.mpr (Int.natCast_nonneg n)), List.nil_append,
    Int.natAbs_natCast, max_eq_left hlog]

theorem getDate_formatDate {date : Date} (hvalid : date.Valid)
    (hfirst : 0 ≤ date.year) (hlast : date.year < 10000) (s : List Char) :
    getDate (formatDate date ++ s) = some (date, s) := by
  obtain ⟨y, hy⟩ := Int.eq_ofNat_of_zero_le hfirst
  have hlt : y < 10 ^ 4 := by omega
  have hmonth : date.month < 100 := by
    have := hvalid.2.1
    omega
  have hday : date.day < 100 := by
    have := hvalid.day_le
    omega
  simp only [getDate, formatDate, hy, appendInt_natCast hlt (by decide),
    List.append_assoc, List.cons_append, getYear_digits hlt, skip_cons,
    getnum_digits true hmonth, getnum_digits true hday, Option.bind_eq_bind,
    Option.bind_some]
  rw [← hy]

theorem getClock_formatClock {clock : Nat} (h : clock < 86400000000000) :
    getClock (formatClock clock ++ ['Z']) = some (clock, ['Z']) := by
  have hhour : clock / 3600000000000 < 24 := by omega
  have hmin : clock / 60000000000 % 60 < 60 := Nat.mod_lt _ (by decide)
  have hsec : clock / 1000000000 % 60 < 60 := Nat.mod_lt _ (by decide)
  have hnsec : clock % 1000000000 < 10 ^ 9 := Nat.mod_lt _ (by decide)
  simp only [getClock, formatClock, List.append_assoc, List.cons_append,
    getnumBelow_digits false hhour (by decide), skip_cons,
    getnumBelow_digits true hmin (by decide),
    getnumBelow_digits true hsec (by decide), getFraction_formatFraction hnsec,
    Option.bind_eq_bind, Option.bind_some]
  rw [Option.some.injEq, Prod.mk.injEq]
  refine ⟨?_, rfl⟩
  omega

theorem parse_format {t : Int} (hfirst : 0 ≤ year t) (hlast : year t < 10000) :
    parseRFC3339Nano (formatRFC3339Nano t) = some t := by
  have hvalid := valid_dateOfDay (epoch + t / day)
  have hdate := dayOfDate_dateOfDay (epoch + t / day)
  have hclock : (t % day).toNat < 86400000000000 := by
    unfold day second
    omega
  simp only [parseRFC3339Nano, formatRFC3339Nano, String.toList_ofList,
    List.append_assoc, List.cons_append, getDate_formatDate hvalid hfirst hlast,
    skip_cons, getClock_formatClock hclock, getZone, Option.bind_eq_bind,
    Option.bind_some, hdate]
  rw [if_pos ⟨trivial, hvalid⟩, Option.some.injEq]
  unfold day second
  omega

theorem getYear_of_not_isDigit {c : Char} {s : List Char}
    (h : c.isDigit = false) : getYear (c :: s) = none := by
  refine if_neg fun hyear => ?_
  have hall := List.all_eq_true.mp hyear.2 c List.mem_cons_self
  rw [h] at hall
  cases hall

theorem getDate_of_long {ds : List Char}
    (hdigits : ∀ c ∈ ds, c.isDigit = true) (hlength : 4 < ds.length)
    (s : List Char) : getDate (ds ++ s) = none := by
  obtain ⟨d, hd⟩ : ∃ d, ds.drop 4 = d :: ds.drop 5 :=
    ⟨ds[4], List.drop_eq_getElem_cons hlength⟩
  have hdigit : d.isDigit = true :=
    hdigits d (List.mem_of_mem_drop (hd ▸ List.mem_cons_self))
  have hdash : d ≠ '-' := by
    rintro rfl
    cases hdigit
  have hyear : getYear (ds ++ s) =
      some ((number (ds.take 4) : Int), d :: (ds.drop 5 ++ s)) := by
    have hle : 4 ≤ ds.length := hlength.le
    have hall : (ds.take 4).all Char.isDigit = true :=
      List.all_eq_true.mpr fun c hc => hdigits c (List.mem_of_mem_take hc)
    rw [getYear, List.take_append_of_le_length hle,
      List.drop_append_of_le_length hle, hd, List.cons_append,
      if_pos ⟨List.length_take_of_le hle, hall⟩]
  simp only [getDate, hyear, skip, hdash, Option.bind_eq_bind, Option.bind_some,
    if_false, Option.bind_none]

theorem getDate_formatDate_eq_none {date : Date}
    (h : date.year < 0 ∨ 10000 ≤ date.year) (s : List Char) :
    getDate (formatDate date ++ s) = none := by
  rw [formatDate, List.append_assoc, List.append_assoc]
  rcases h with hneg | hlong
  · rw [appendInt, if_pos hneg, List.singleton_append, List.cons_append, getDate,
      getYear_of_not_isDigit rfl]
    rfl
  · obtain ⟨y, hy⟩ := Int.eq_ofNat_of_zero_le (le_trans (by decide) hlong)
    have hlog : 4 ≤ Nat.log 10 y := Nat.le_log_of_pow_le (by decide) (by omega)
    rw [appendInt, hy, if_neg (not_lt.mpr (Int.natCast_nonneg y)),
      List.nil_append, Int.natAbs_natCast]
    refine getDate_of_long (fun _ => isDigit_of_mem_digits) ?_ _
    rw [length_digits]
    exact lt_max_of_lt_right (Nat.lt_succ_of_le hlog)

theorem parse_format_eq_none {t : Int} (h : year t < 0 ∨ 10000 ≤ year t) :
    parseRFC3339Nano (formatRFC3339Nano t) = none := by
  rw [parseRFC3339Nano, formatRFC3339Nano, String.toList_ofList,
    List.append_assoc, getDate_formatDate_eq_none h]
  rfl

end Modularis.Foundation.GoTime
