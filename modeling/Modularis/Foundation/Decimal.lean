import Mathlib.Algebra.Ring.Nat
import Mathlib.Data.List.DropRight
import Mathlib.Data.Nat.Log

namespace Modularis.Foundation.Decimal

/-- The digit that stands for a number below ten. -/
def digitChar (n : Nat) : Char := Char.ofNat (48 + n)

/-- The number that a digit stands for. -/
def digitValue (c : Char) : Nat := c.toNat - 48

theorem toNat_digitChar {n : Nat} (h : n < 10) : (digitChar n).toNat = 48 + n := by
  have hall : ∀ n < 10, (digitChar n).toNat = 48 + n := by decide
  exact hall n h

theorem digitValue_digitChar {n : Nat} (h : n < 10) :
    digitValue (digitChar n) = n := by
  rw [digitValue, toNat_digitChar h]
  omega

theorem isDigit_digitChar {n : Nat} (h : n < 10) :
    (digitChar n).isDigit = true := by
  rw [Char.isDigit_iff_toNat, toNat_digitChar h]
  exact ⟨Nat.le_add_right 48 n, by change 48 + n ≤ 57; omega⟩

/-- The last `width` digits of a number. -/
def digits : Nat → Nat → List Char
  | 0, _ => []
  | width + 1, n => digits width (n / 10) ++ [digitChar (n % 10)]

@[simp] theorem length_digits (width n : Nat) : (digits width n).length = width := by
  induction width generalizing n with
  | zero => rfl
  | succ width ih => simp [digits, ih]

theorem isDigit_of_mem_digits {width n : Nat} {c : Char}
    (h : c ∈ digits width n) : c.isDigit = true := by
  induction width generalizing n with
  | zero => cases h
  | succ width ih =>
      rcases List.mem_append.mp h with hmem | hmem
      · exact ih hmem
      · obtain rfl := List.mem_singleton.mp hmem
        exact isDigit_digitChar (Nat.mod_lt n (by decide))

theorem digits_two (n : Nat) :
    digits 2 n = [digitChar (n / 10 % 10), digitChar (n % 10)] := rfl

/-- The number that a list of digits denotes. -/
def number (ds : List Char) : Nat :=
  ds.foldl (fun n c => 10 * n + digitValue c) 0

@[simp] theorem number_nil : number [] = 0 := rfl

@[simp] theorem number_concat (ds : List Char) (c : Char) :
    number (ds ++ [c]) = 10 * number ds + digitValue c := by
  simp [number]

theorem number_digits {width n : Nat} (h : n < 10 ^ width) :
    number (digits width n) = n := by
  induction width generalizing n with
  | zero =>
      rw [Nat.pow_zero, Nat.lt_one_iff] at h
      simp [digits, h]
  | succ width ih =>
      have hquotient : n / 10 < 10 ^ width := by
        rw [Nat.pow_succ] at h
        omega
      rw [digits, number_concat, ih hquotient,
        digitValue_digitChar (Nat.mod_lt n (by decide))]
      omega

/-- Drop the zeros at the end. -/
def trimZeros (ds : List Char) : List Char := ds.rdropWhile (· == '0')

/-- The value of a fraction in units of the given decimal place; further digits
are cut off. -/
def scaled (place : Nat) (ds : List Char) : Nat :=
  number (ds.take place) * 10 ^ (place - (ds.take place).length)

theorem trimZeros_concat (ds : List Char) (c : Char) :
    trimZeros (ds ++ [c]) = if c = '0' then trimZeros ds else ds ++ [c] := by
  simp [trimZeros, List.rdropWhile_concat]

theorem length_trimZeros_le (ds : List Char) :
    (trimZeros ds).length ≤ ds.length :=
  (List.rdropWhile_prefix _ ds).length_le

theorem number_trimZeros (ds : List Char) :
    number (trimZeros ds) * 10 ^ (ds.length - (trimZeros ds).length) =
      number ds := by
  induction ds using List.reverseRecOn with
  | nil => rfl
  | append_singleton ds c ih =>
      rw [trimZeros_concat]
      split
      · rename_i hzero
        have hle := length_trimZeros_le ds
        have hlength : (ds ++ [c]).length - (trimZeros ds).length =
            ds.length - (trimZeros ds).length + 1 := by
          rw [List.length_append, List.length_singleton]
          omega
        rw [hlength, Nat.pow_succ, ← Nat.mul_assoc, ih, number_concat, hzero,
          show digitValue '0' = 0 from rfl]
        omega
      · rw [Nat.sub_self, Nat.pow_zero, Nat.mul_one]

theorem scaled_trimZeros (ds : List Char) :
    scaled ds.length (trimZeros ds) = number ds := by
  rw [scaled, List.take_of_length_le (length_trimZeros_le ds)]
  exact number_trimZeros ds

theorem trimZeros_ne_nil {ds : List Char} (h : number ds ≠ 0) :
    trimZeros ds ≠ [] := by
  intro hnil
  have hnumber := number_trimZeros ds
  rw [hnil, number_nil, Nat.zero_mul] at hnumber
  exact h hnumber.symm

theorem isDigit_of_mem_trimZeros {ds : List Char}
    (hdigits : ∀ c ∈ ds, c.isDigit = true) {c : Char} (h : c ∈ trimZeros ds) :
    c.isDigit = true :=
  hdigits c ((List.rdropWhile_prefix _ ds).subset h)

end Modularis.Foundation.Decimal
