import Mathlib.Data.List.DropRight
import Modularis.Foundation.Decimal
import Modularis.Foundation.GoInt

namespace Modularis.Shared.Text

open Modularis.Foundation.Decimal
open Modularis.Foundation.GoInt

/-- `unicode.IsSpace`. -/
def isSpace (c : Char) : Bool :=
  c.toNat ∈ [0x09, 0x0A, 0x0B, 0x0C, 0x0D, 0x20, 0x85, 0xA0, 0x1680, 0x2028,
    0x2029, 0x202F, 0x205F, 0x3000] ||
  decide (0x2000 ≤ c.toNat ∧ c.toNat ≤ 0x200A)

/-- `strings.TrimSpace`. -/
def trimSpace (s : String) : String :=
  String.ofList ((s.toList.dropWhile isSpace).rdropWhile isSpace)

/-- `unicodeToUpper` is the table of package `unicode`. -/
def toUpper (unicodeToUpper : Char → Char) (s : String) : String :=
  String.ofList (s.toList.map unicodeToUpper)

/-- `strings.Split` at a single character. -/
def split (s : String) (separator : Char) : List String :=
  (s.toList.splitOn separator).map String.ofList

/-- `strings.SplitN(s, separator, 2)`; `none` is a result of length one. -/
def cut (s : String) (separator : Char) : Option (String × String) :=
  match s.toList.span (· ≠ separator) with
  | (before, _ :: after) => some (String.ofList before, String.ofList after)
  | (_, []) => none

/-- `strconv.FormatInt(x, 10)`. -/
def formatInt (x : Int) : String :=
  String.ofList ((if x < 0 then ['-'] else []) ++
    digits (Nat.log 10 x.natAbs + 1) x.natAbs)

/-- A number without a sign. -/
def parseDigits (s : List Char) : Option Nat :=
  if s ≠ [] ∧ s.all Char.isDigit then some (number s) else none

/-- `strconv.ParseInt(s, 10, 64)`. -/
def parseInt (s : String) : Option Int :=
  let value := match s.toList with
    | '-' :: rest => (parseDigits rest).map fun n => -(n : Int)
    | '+' :: rest => (parseDigits rest).map fun n => (n : Int)
    | rest => (parseDigits rest).map fun n => (n : Int)
  value.filter fun x => decide (minInt64 ≤ x ∧ x ≤ maxInt64)

/-- A string as UTF-8. -/
def bytes (s : String) : List UInt8 := s.toUTF8.data.toList

/-- `hex.EncodeToString`. -/
def encodeToString (src : List UInt8) : String :=
  String.ofList (src.flatMap fun b =>
    [Nat.digitChar (b.toNat / 16), Nat.digitChar (b.toNat % 16)])

theorem natAbs_lt_pow (x : Int) : x.natAbs < 10 ^ (Nat.log 10 x.natAbs + 1) :=
  Nat.lt_pow_succ_log_self (by decide) x.natAbs

theorem parseDigits_digits {width n : Nat} (h : n < 10 ^ (width + 1)) :
    parseDigits (digits (width + 1) n) = some n := by
  have hne : digits (width + 1) n ≠ [] :=
    List.ne_nil_of_length_eq_add_one (length_digits (width + 1) n)
  have hall : (digits (width + 1) n).all Char.isDigit = true :=
    List.all_eq_true.mpr fun _ => isDigit_of_mem_digits
  rw [parseDigits, if_pos ⟨hne, hall⟩, number_digits h]

theorem mem_formatInt {x : Int} {c : Char} (h : c ∈ (formatInt x).toList) :
    c = '-' ∨ c.isDigit = true := by
  rw [formatInt, String.toList_ofList] at h
  rcases List.mem_append.mp h with hsign | hdigit
  · split at hsign
    · exact .inl (List.mem_singleton.mp hsign)
    · cases hsign
  · exact .inr (isDigit_of_mem_digits hdigit)

theorem parseInt_minus {rest : List Char} {n : Nat} (hread : parseDigits rest = some n)
    (hlow : minInt64 ≤ -(n : Int)) :
    parseInt (String.ofList ('-' :: rest)) = some (-(n : Int)) := by
  have hhigh : -(n : Int) ≤ maxInt64 := by
    unfold maxInt64
    omega
  simp [parseInt, hread, Option.filter, hlow, hhigh]

theorem parseInt_digits {s : List Char} {n : Nat} (hread : parseDigits s = some n)
    (hhigh : (n : Int) ≤ maxInt64) : parseInt (String.ofList s) = some (n : Int) := by
  have hlow : minInt64 ≤ (n : Int) := by
    unfold minInt64
    omega
  have hdigits : s.all Char.isDigit = true := by
    by_contra hnot
    rw [parseDigits, if_neg fun h => hnot h.2] at hread
    cases hread
  rw [parseInt, String.toList_ofList]
  split
  rotate_left 2
  · simp [hread, Option.filter, hlow, hhigh]
  all_goals cases (List.all_eq_true.mp hdigits) _ List.mem_cons_self

theorem parseInt_formatInt {x : Int} (hlow : minInt64 ≤ x) (hhigh : x ≤ maxInt64) :
    parseInt (formatInt x) = some x := by
  have hread := parseDigits_digits (natAbs_lt_pow x)
  rcases lt_or_ge x 0 with hneg | hnonneg
  · have hvalue : -(x.natAbs : Int) = x := by omega
    rw [formatInt, if_pos hneg, List.singleton_append,
      parseInt_minus hread (hlow.trans_eq hvalue.symm), hvalue]
  · have hvalue : (x.natAbs : Int) = x := by omega
    rw [formatInt, if_neg hnonneg.not_gt, List.nil_append,
      parseInt_digits hread (hvalue.trans_le hhigh), hvalue]

theorem mem_encodeToString {src : List UInt8} {c : Char}
    (h : c ∈ (encodeToString src).toList) : ∃ n < 16, c = Nat.digitChar n := by
  rw [encodeToString, String.toList_ofList] at h
  obtain ⟨b, _, hc⟩ := List.mem_flatMap.mp h
  have hb := b.toNat_lt
  rcases List.mem_cons.mp hc with rfl | hc
  · exact ⟨b.toNat / 16, by omega, rfl⟩
  · exact ⟨b.toNat % 16, by omega, List.mem_singleton.mp hc⟩

theorem encodeToString_ne_empty {src : List UInt8} (h : src ≠ []) :
    encodeToString src ≠ "" := by
  obtain ⟨b, rest, rfl⟩ := List.exists_cons_of_ne_nil h
  intro hempty
  have hnil := congrArg String.toList hempty
  simp [encodeToString] at hnil

end Modularis.Shared.Text
