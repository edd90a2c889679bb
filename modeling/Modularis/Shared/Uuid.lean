import Mathlib.Algebra.Order.BigOperators.Group.List
import Mathlib.Algebra.Ring.Nat

namespace Modularis.Shared.Uuid

/-- The 128 bits, four at a time. -/
structure UUID where
  digits : List (Fin 16)
  length_digits : digits.length = 32
deriving DecidableEq

/-- The UUID of one digit. -/
def UUID.ofDigit (d : Fin 16) : UUID := ⟨List.replicate 32 d, List.length_replicate⟩

/-- The lengths of the groups between the hyphens. -/
def groups : List Nat := [8, 4, 4, 4, 12]

def hexDigits : List Char :=
  ['0', '1', '2', '3', '4', '5', '6', '7', '8', '9', 'a', 'b', 'c', 'd', 'e', 'f']

/-- A digit in lower case, as `toString` writes it. -/
def hexDigit (d : Fin 16) : Char := hexDigits.getD d.val '0'

/-- A digit in either case. -/
def hexValue (c : Char) : Option (Fin 16) :=
  (List.finRange 16).find? fun d => hexDigit d = c ∨ (hexDigit d).toUpper = c

/-- The groups, with hyphens between them. -/
def writeGroups : List Nat → List (Fin 16) → List Char
  | [], _ => []
  | [n], ds => (ds.take n).map hexDigit
  | n :: ns, ds => (ds.take n).map hexDigit ++ '-' :: writeGroups ns (ds.drop n)

/-- Read a number of digits and hand back the rest. -/
def readDigits : Nat → List Char → Option (List (Fin 16) × List Char)
  | 0, cs => some ([], cs)
  | _ + 1, [] => none
  | n + 1, c :: cs =>
      match hexValue c, readDigits n cs with
      | some d, some (ds, rest) => some (d :: ds, rest)
      | _, _ => none

/-- Groups of just these lengths, and nothing behind them. -/
def readGroups : List Nat → List Char → Option (List (Fin 16))
  | [], cs => if cs = [] then some [] else none
  | [n], cs =>
      match readDigits n cs with
      | some (ds, []) => some ds
      | _ => none
  | n :: ns, cs =>
      match readDigits n cs with
      | some (ds, '-' :: rest) => (readGroups ns rest).map (ds ++ ·)
      | _ => none

/-- The text of thirty-six characters. -/
def UUID.toString (uuid : UUID) : String :=
  String.ofList (writeGroups groups uuid.digits)

/-- `none` is an `IllegalArgumentException`. -/
def UUID.fromString (name : String) : Option UUID :=
  match readGroups groups name.toList with
  | some ds => if h : ds.length = 32 then some ⟨ds, h⟩ else none
  | none => none

theorem hexValue_hexDigit (d : Fin 16) : hexValue (hexDigit d) = some d := by
  revert d
  decide

theorem readDigits_map (ds : List (Fin 16)) (rest : List Char) :
    readDigits ds.length (ds.map hexDigit ++ rest) = some (ds, rest) := by
  induction ds with
  | nil => rfl
  | cons d ds ih => simp [readDigits, hexValue_hexDigit, ih]

theorem readDigits_take {n : Nat} {ds : List (Fin 16)} (h : n ≤ ds.length)
    (rest : List Char) :
    readDigits n ((ds.take n).map hexDigit ++ rest) = some (ds.take n, rest) := by
  have hlength : (ds.take n).length = n := by simp [h]
  simpa [hlength] using readDigits_map (ds.take n) rest

theorem readGroups_writeGroups {ns : List Nat} (hne : ns ≠ [])
    {ds : List (Fin 16)} (h : ds.length = ns.sum) :
    readGroups ns (writeGroups ns ds) = some ds := by
  induction ns generalizing ds with
  | nil => exact absurd rfl hne
  | cons n ns ih =>
      rw [List.sum_cons] at h
      have hread := readDigits_take (show n ≤ ds.length by omega)
      cases ns with
      | nil =>
          have htake : ds.take n = ds := List.take_of_length_le (by simp_all)
          have hall := hread []
          rw [List.append_nil, htake] at hall
          simp [writeGroups, readGroups, hall, htake]
      | cons m ms =>
          have hrest : (ds.drop n).length = (m :: ms).sum := by simp [h]
          rw [writeGroups, readGroups, hread]
          · simp [ih (List.cons_ne_nil m ms) hrest]
          · simp
          · simp

theorem fromString_toString (uuid : UUID) :
    UUID.fromString uuid.toString = some uuid := by
  have hread : readGroups groups (writeGroups groups uuid.digits) =
      some uuid.digits :=
    readGroups_writeGroups (by simp [groups]) uuid.length_digits
  simp [UUID.fromString, UUID.toString, hread, uuid.length_digits]

theorem toString_injective : Function.Injective UUID.toString := by
  intro uuid other h
  have hread := fromString_toString uuid
  rw [h, fromString_toString] at hread
  exact (Option.some.inj hread).symm

/-- A text that `toString` writes. -/
def Canonical (name : String) : Prop := ∃ uuid : UUID, uuid.toString = name

theorem toString_of_canonical {name : String} (h : Canonical name) {uuid : UUID}
    (hread : UUID.fromString name = some uuid) : uuid.toString = name := by
  obtain ⟨other, rfl⟩ := h
  rw [fromString_toString] at hread
  rw [Option.some.inj hread]

end Modularis.Shared.Uuid
