import Mathlib.Data.List.Basic
import Mathlib.Data.String.Basic

namespace Modularis.Foundation.Column

/-- Whether Postgres takes the text: it has no place for the character `U+0000`. -/
def isText (text : String) : Bool := text.toList.all fun c => decide (c ≠ Char.ofNat 0)

/-- What a column `varchar(n)` keeps of a text.  Behind the first `n` characters only
blanks are let through, and these are cut off; `none` is the error otherwise. -/
def varchar (n : Nat) (text : String) : Option String :=
  if isText text && (text.toList.drop n).all (fun c => decide (c = ' ')) then
    some (String.ofList (text.toList.take n))
  else none

section Varchar

variable {n : Nat} {text stored : String}

theorem varchar_eq_some_iff : varchar n text = some stored ↔
    isText text = true ∧ (∀ c ∈ text.toList.drop n, c = ' ') ∧
      stored.toList = text.toList.take n := by
  simp only [varchar, Option.ite_none_right_eq_some, Option.some.injEq, Bool.and_eq_true,
    List.all_eq_true, decide_eq_true_eq, and_assoc]
  refine and_congr_right fun _ => and_congr_right fun _ => ?_
  constructor
  · rintro rfl
    exact String.toList_ofList
  · intro h
    rw [← h, String.ofList_toList]

theorem isText_of_varchar (h : varchar n text = some stored) : isText text = true :=
  (varchar_eq_some_iff.mp h).1

theorem length_of_varchar (h : varchar n text = some stored) : stored.length ≤ n := by
  rw [← String.length_toList, (varchar_eq_some_iff.mp h).2.2]
  exact List.length_take_le n text.toList

theorem varchar_eq_self_iff :
    varchar n text = some text ↔ isText text = true ∧ text.length ≤ n := by
  constructor
  · exact fun h => ⟨isText_of_varchar h, length_of_varchar h⟩
  · rintro ⟨htext, hlength⟩
    rw [← String.length_toList] at hlength
    refine varchar_eq_some_iff.mpr ⟨htext, ?_, (List.take_of_length_le hlength).symm⟩
    rw [List.drop_eq_nil_of_le hlength]
    exact fun c hc => absurd hc List.not_mem_nil

theorem eq_of_length_le (hlength : text.length ≤ n) (h : varchar n text = some stored) :
    stored = text :=
  Option.some.inj (h.symm.trans (varchar_eq_self_iff.mpr ⟨isText_of_varchar h, hlength⟩))

theorem varchar_stored (h : varchar n text = some stored) :
    varchar n stored = some stored := by
  refine varchar_eq_self_iff.mpr ⟨?_, length_of_varchar h⟩
  obtain ⟨htext, _, hstored⟩ := varchar_eq_some_iff.mp h
  rw [isText, hstored, List.all_eq_true]
  exact fun c hc => List.all_eq_true.mp htext c (List.mem_of_mem_take hc)

theorem eq_of_varchar (hend : text.toList.getLast? ≠ some ' ')
    (h : varchar n text = some stored) : stored = text := by
  obtain ⟨_, hblank, hstored⟩ := varchar_eq_some_iff.mp h
  rcases Nat.lt_or_ge n text.toList.length with hlong | hshort
  · have hdrop : text.toList.drop n ≠ [] := by
      rw [Ne, List.drop_eq_nil_iff]
      omega
    have hlast : text.toList.getLast? = some ((text.toList.drop n).getLast hdrop) := by
      rw [List.getLast_drop, List.getLast?_eq_some_getLast]
    rw [hblank _ (List.getLast_mem hdrop)] at hlast
    exact absurd hlast hend
  · rw [List.take_of_length_le hshort] at hstored
    exact String.toList_injective hstored

theorem eq_of_varchar_eq {other : String} (hend : text.toList.getLast? ≠ some ' ')
    (hend' : other.toList.getLast? ≠ some ' ') (h : varchar n text = some stored)
    (h' : varchar n other = some stored) : text = other :=
  (eq_of_varchar hend h).symm.trans (eq_of_varchar hend' h')

end Varchar

example : varchar 3 "Ada  " = some "Ada" := by decide

example : varchar 3 "Adam " = none := by decide

end Modularis.Foundation.Column
