import Modularis.Foundation.Program

namespace Modularis.Foundation

namespace Program

variable {Op : Type} {Reply : Op → Type} {α β σ χ : Type}

/-- The rest of a program after operations in the given states. -/
def resume (act : σ → (op : Op) → χ → Reply op × σ) :
    Program Reply α → List (σ × χ) → Program Reply α
  | p, [] => p
  | done value, _ :: _ => done value
  | call op next, (s, choice) :: met => (next (act s op choice).1).resume act met

section Resume

variable {act : σ → (op : Op) → χ → Reply op × σ}

@[simp] theorem resume_nil (p : Program Reply α) : p.resume act [] = p := by
  cases p <;> rfl

@[simp] theorem resume_done (value : α) (met : List (σ × χ)) :
    (done value : Program Reply α).resume act met = done value := by
  cases met <;> rfl

theorem resume_append (p : Program Reply α) (met met' : List (σ × χ)) :
    p.resume act (met ++ met') = (p.resume act met).resume act met' := by
  induction met generalizing p with
  | nil => simp
  | cons m met ih =>
      cases p with
      | done value => simp
      | call op next => exact ih _

theorem resume_perform_cons {op : Op} (f : Reply op → Program Reply α) (m : σ × χ)
    (met : List (σ × χ)) :
    (perform op >>= f).resume act (m :: met) =
      (f (act m.1 op m.2).1).resume act met := rfl

theorem resume_perform_bind {op : Op} {f : Reply op → Program Reply α}
    {met : List (σ × χ)} {value : α}
    (h : (perform op >>= f).resume act met = done value) :
    ∃ m rest, met = m :: rest ∧
      (f (act m.1 op m.2).1).resume act rest = done value := by
  cases met with
  | nil => cases h
  | cons m rest => exact ⟨m, rest, rfl, h⟩

theorem resume_bind {p : Program Reply β} {f : β → Program Reply α}
    {met : List (σ × χ)} {value : α} (h : (p >>= f).resume act met = done value) :
    ∃ first before after, met = before ++ after ∧
      p.resume act before = done first ∧ (f first).resume act after = done value := by
  induction p generalizing met with
  | done first => exact ⟨first, [], met, rfl, rfl, h⟩
  | call op next ih =>
      obtain ⟨m, rest, rfl, hrest⟩ := resume_perform_bind h
      obtain ⟨first, before, after, rfl, hfirst, hafter⟩ := ih _ hrest
      exact ⟨first, m :: before, after, rfl, hfirst, hafter⟩

theorem resume_bind_of_call {p : Program Reply β} (f : β → Program Reply α)
    {met : List (σ × χ)} {op : Op} {next : Reply op → Program Reply β}
    (h : p.resume act met = call op next) :
    (p >>= f).resume act met = call op fun reply => next reply >>= f := by
  induction p generalizing met with
  | done value => cases (resume_done value met).symm.trans h
  | call op' next' ih =>
      cases met with
      | nil =>
          cases h
          rfl
      | cons m rest => exact ih _ h

end Resume

end Program

namespace Pool

variable {Op : Type} {Reply : Op → Type} {ι ρ α σ χ : Type} [DecidableEq ι]
  {program : ρ → Program Reply α} {act : ι → ρ → σ → (op : Op) → χ → Reply op × σ}

/-- The state and the choice of each operation of an invocation, oldest first. -/
def metBy (i : ι) (trace : List (Pool Reply ι ρ α σ × Event ι ρ χ)) : List (σ × χ) :=
  trace.filterMap fun p =>
    match p.2 with
    | .act j choice => if j = i then some (p.1.shared, choice) else none
    | _ => none

section Runs

variable {trace : List (Pool Reply ι ρ α σ × Event ι ρ χ)} {s : σ}
  {w w' : Pool Reply ι ρ α σ} {i : ι} {request : ρ}

theorem metBy_append (trace' : List (Pool Reply ι ρ α σ × Event ι ρ χ)) :
    metBy i (trace ++ trace') = metBy i trace ++ metBy i trace' :=
  List.filterMap_append

theorem metBy_act (w : Pool Reply ι ρ α σ) (i : ι) (choice : χ) :
    metBy i [(w, Event.act i choice)] = [(w.shared, choice)] := by
  simp [metBy]

theorem metBy_other {e : Event ι ρ χ} (he : ∀ choice, e ≠ .act i choice) :
    metBy i [(w, e)] = [] := by
  cases e with
  | act j choice =>
      have hj : j ≠ i := by
        rintro rfl
        exact he choice rfl
      simp [metBy, hj]
  | start | stop => rfl

theorem metBy_snoc_other {e : Event ι ρ χ} (he : ∀ choice, e ≠ .act i choice) :
    metBy i (trace ++ [(w, e)]) = metBy i trace := by
  rw [metBy_append, metBy_other he, List.append_nil]

theorem metBy_snoc_act (w : Pool Reply ι ρ α σ) (choice : χ) :
    metBy i (trace ++ [(w, Event.act i choice)]) =
      metBy i trace ++ [(w.shared, choice)] := by
  rw [metBy_append, metBy_act]

theorem ne_act_of_unused {e : Event ι ρ χ} (hi : w.invocations i = none)
    (hstep : w.step program act e = some w') (choice : χ) : e ≠ .act i choice := by
  rintro rfl
  obtain ⟨request, op, next, hrunning, _⟩ := step_act hstep
  rw [hi] at hrunning
  cases hrunning

theorem metBy_of_unused
    (hrun : StepSystem.Run (Pool.step program act) (init s) trace w)
    (hi : w.invocations i = none) : metBy i trace = [] := by
  induction hrun with
  | nil => rfl
  | @snoc trace w w' e _ hstep ih =>
      have hbefore : w.invocations i = none := by
        cases h : w.invocations i with
        | none => rfl
        | some invocation =>
            obtain ⟨rest, hkept⟩ := kept_of_step hstep h
            rw [hi] at hkept
            cases hkept
      rw [metBy_snoc_other (ne_act_of_unused hbefore hstep), ih hbefore]

theorem resume_of_run
    (hrun : StepSystem.Run (Pool.step program act) (init s) trace w)
    {p : Program Reply α}
    (hi : w.invocations i = some { request := request, rest := some p }) :
    (program request).resume (act i request) (metBy i trace) = p := by
  induction hrun generalizing p with
  | nil => cases hi
  | @snoc trace w w' e hbefore hstep ih =>
      by_cases he : e.invocation = i
      · subst he
        cases e with
        | start i request' =>
            simp only [Pool.step, Event.invocation] at hstep hi
            split at hstep
            · rename_i hnone
              obtain rfl := Option.some.inj hstep
              simp only [Pool.set, Function.update_self, Option.some.injEq,
                Invocation.mk.injEq] at hi
              obtain ⟨rfl, rfl⟩ := hi
              rw [Event.invocation, metBy_snoc_other (by simp),
                metBy_of_unused hbefore hnone]
              exact Program.resume_nil _
            · cases hstep
        | act i choice =>
            simp only [Pool.step, Event.invocation] at hstep hi
            split at hstep
            · rename_i request' op next hrunning
              obtain rfl := Option.some.inj hstep
              simp only [Pool.set, Function.update_self, Option.some.injEq,
                Invocation.mk.injEq] at hi
              obtain ⟨rfl, rfl⟩ := hi
              have hresumed : (program request').resume (act i request')
                  (metBy i trace) = .call op next := ih hrunning
              rw [Event.invocation, metBy_snoc_act, Program.resume_append, hresumed]
              exact Program.resume_nil _
            · cases hstep
        | stop i =>
            simp only [Pool.step, Event.invocation] at hstep hi
            split at hstep
            · obtain rfl := Option.some.inj hstep
              simp [Pool.set] at hi
            · cases hstep
      · have hother : ∀ choice, e ≠ .act i choice := by
          rintro choice rfl
          exact he rfl
        rw [metBy_snoc_other hother]
        rw [invocations_of_step hstep fun j hj hij => he (hj.trans hij.symm)] at hi
        exact ih hi

theorem kept_of_run {w : Pool Reply ι ρ α σ}
    (hrun : StepSystem.Run (Pool.step program act) w trace w')
    {rest : Option (Program Reply α)}
    (hi : w.invocations i = some { request := request, rest := rest }) :
    ∃ rest', w'.invocations i = some { request := request, rest := rest' } := by
  induction hrun with
  | nil => exact ⟨rest, hi⟩
  | snoc _ hstep ih =>
      obtain ⟨rest', hrest⟩ := ih
      exact kept_of_step hstep hrest

/-- Each operation of an invocation was a step of the run, in the state and with
the effect that it has met. -/
theorem acted_of_run
    (hrun : StepSystem.Run (Pool.step program act) (init s) trace w)
    {rest : Option (Program Reply α)}
    (hi : w.invocations i = some { request := request, rest := rest })
    {before after : List (σ × χ)} {m : σ × χ}
    (hmet : metBy i trace = before ++ m :: after) {op : Op}
    {next : Reply op → Program Reply α}
    (hop : (program request).resume (act i request) before = .call op next) :
    ∃ past future v u, trace = past ++ (v, .act i m.2) :: future ∧ v.shared = m.1 ∧
      StepSystem.Run (Pool.step program act) (init s) past v ∧
      Pool.step program act v (.act i m.2) = some u ∧
      u.shared = (act i request m.1 op m.2).2 ∧
      StepSystem.Run (Pool.step program act) u future w := by
  obtain ⟨past, rest', rfl, rfl, hrest⟩ := List.filterMap_eq_append_iff.mp hmet
  obtain ⟨idle, ⟨v, e⟩, future, rfl, hidle, hm, _⟩ := List.filterMap_eq_cons_iff.mp hrest
  have hpast : metBy i (past ++ idle) = metBy i past := by
    rw [metBy_append, metBy, metBy, List.filterMap_eq_nil_iff.mpr hidle, List.append_nil]
  cases e with
  | act j choice =>
      obtain ⟨rfl, heq⟩ : j = i ∧ some (v.shared, choice) = some m := by
        simpa only [Option.ite_none_right_eq_some] using hm
      obtain rfl := Option.some.inj heq
      rw [← List.append_assoc] at hrun ⊢
      obtain ⟨u, hbefore, hstep, hafter⟩ := hrun.split rfl
      obtain ⟨request', op', next', hrunning, hshared⟩ := step_act hstep
      obtain ⟨_, hu⟩ := kept_of_step hstep hrunning
      obtain ⟨_, hw⟩ := kept_of_run hafter hu
      obtain ⟨rfl, _⟩ := Invocation.mk.inj (Option.some.inj (hw.symm.trans hi))
      have hresumed := resume_of_run hbefore hrunning
      rw [hpast] at hresumed
      obtain ⟨rfl, _⟩ := Program.call.inj (hresumed.symm.trans hop)
      exact ⟨past ++ idle, future, v, u, rfl, rfl, hbefore, hstep, hshared, hafter⟩
  | start | stop => cases hm

end Runs

end Pool

end Modularis.Foundation
