import Mathlib.Data.List.Forall2

namespace Modularis.Foundation.Delimited

variable {γ α β : Type*}

/-- What stands between an item and the rest: the items that follow, each behind a
separator, and the bracket. -/
def closing (separator close : γ) (text : α → List γ) (rest : List γ) : List α → List γ
  | [] => close :: rest
  | x :: xs => separator :: (text x ++ closing separator close text rest xs)

theorem intercalate_closed (separator close : γ) (text : α → List γ) (rest : List γ)
    (x : α) (xs : List α) :
    [separator].intercalate ((x :: xs).map text) ++ close :: rest =
      text x ++ closing separator close text rest xs := by
  induction xs generalizing x with
  | nil => simp [closing]
  | cons y ys ih =>
      have htail := ih y
      rw [List.map_cons, List.map_cons, List.intercalate_cons_cons, ← List.map_cons,
        List.append_assoc, List.append_assoc, htail]
      rfl

/-- The texts of `x` and `y` can be told apart, and read off, in front of anything that
may follow. -/
def ReadsOff (Ends : List γ → Prop) (R : α → β → Prop) (text : α → List γ)
    (text' : β → List γ) (x : α) (y : β) : Prop :=
  ∀ rest rest', Ends rest → Ends rest' → text x ++ rest = text' y ++ rest' →
    R x y ∧ rest = rest'

section Sequences

variable {Ends : List γ → Prop} {R : α → β → Prop} {text : α → List γ}
  {text' : β → List γ} {separator close : γ}

theorem closing_ends (hseparator : ∀ rest, Ends (separator :: rest))
    (hclose : ∀ rest, Ends (close :: rest)) (rest : List γ) (xs : List α) :
    Ends (closing separator close text rest xs) := by
  cases xs with
  | nil => exact hclose rest
  | cons x xs => exact hseparator _

theorem forall₂_of_closing_eq (hne : separator ≠ close)
    (hseparator : ∀ rest, Ends (separator :: rest))
    (hclose : ∀ rest, Ends (close :: rest)) {rest rest' : List γ} {xs : List α}
    {ys : List β}
    (hitems : ∀ x ∈ xs, ∀ y ∈ ys, ReadsOff Ends R text text' x y)
    (h : closing separator close text rest xs = closing separator close text' rest' ys) :
    List.Forall₂ R xs ys ∧ rest = rest' := by
  induction xs generalizing ys with
  | nil =>
      cases ys with
      | nil => exact ⟨.nil, (List.cons.inj h).2⟩
      | cons y ys => exact absurd (List.cons.inj h).1.symm hne
  | cons x xs ih =>
      cases ys with
      | nil => exact absurd (List.cons.inj h).1 hne
      | cons y ys =>
          obtain ⟨hxy, htail⟩ := hitems x List.mem_cons_self y List.mem_cons_self _ _
            (closing_ends hseparator hclose _ _) (closing_ends hseparator hclose _ _)
            (List.cons.inj h).2
          obtain ⟨hrest, hend⟩ := ih (fun x hx y hy =>
            hitems x (List.mem_cons_of_mem _ hx) y (List.mem_cons_of_mem _ hy)) htail
          exact ⟨.cons hxy hrest, hend⟩

/-- The items of a closed sequence can be read back, if no item starts like the
bracket. -/
theorem forall₂_of_intercalate_eq (hne : separator ≠ close)
    (hseparator : ∀ rest, Ends (separator :: rest))
    (hclose : ∀ rest, Ends (close :: rest)) {rest rest' : List γ} {xs : List α}
    {ys : List β}
    (hstart : ∀ x ∈ xs, ∃ c t, text x = c :: t ∧ c ≠ close)
    (hstart' : ∀ y ∈ ys, ∃ c t, text' y = c :: t ∧ c ≠ close)
    (hitems : ∀ x ∈ xs, ∀ y ∈ ys, ReadsOff Ends R text text' x y)
    (h : [separator].intercalate (xs.map text) ++ close :: rest =
      [separator].intercalate (ys.map text') ++ close :: rest') :
    List.Forall₂ R xs ys ∧ rest = rest' := by
  cases xs with
  | nil =>
      cases ys with
      | nil => exact ⟨.nil, (List.cons.inj h).2⟩
      | cons y ys =>
          obtain ⟨c, t, hy, hc⟩ := hstart' y List.mem_cons_self
          rw [intercalate_closed, hy] at h
          exact absurd (List.cons.inj h).1.symm hc
  | cons x xs =>
      cases ys with
      | nil =>
          obtain ⟨c, t, hx, hc⟩ := hstart x List.mem_cons_self
          rw [intercalate_closed, hx] at h
          exact absurd (List.cons.inj h).1 hc
      | cons y ys =>
          rw [intercalate_closed, intercalate_closed] at h
          obtain ⟨hxy, htail⟩ := hitems x List.mem_cons_self y List.mem_cons_self _ _
            (closing_ends hseparator hclose _ _) (closing_ends hseparator hclose _ _) h
          obtain ⟨hrest, hend⟩ := forall₂_of_closing_eq hne hseparator hclose
            (fun x hx y hy =>
              hitems x (List.mem_cons_of_mem _ hx) y (List.mem_cons_of_mem _ hy)) htail
          exact ⟨.cons hxy hrest, hend⟩

end Sequences

end Modularis.Foundation.Delimited
