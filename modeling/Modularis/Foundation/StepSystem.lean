import Mathlib.Data.List.Basic

/-!
Runs of labelled step functions.  A step function answers `none` when an event
is not enabled; a run records, oldest first, the states in which its events
were taken, so that properties of histories can be stated about the trace.
-/

namespace Modularis.Foundation.StepSystem

variable {σ ε : Type*} {step : σ → ε → Option σ}

/-- `Run step start trace s`: the events of `trace`, each paired with the state
in which it was taken, lead from `start` to `s`. -/
inductive Run (step : σ → ε → Option σ) (start : σ) : List (σ × ε) → σ → Prop
  | nil : Run step start [] start
  | snoc {trace : List (σ × ε)} {s t : σ} {e : ε} :
      Run step start trace s → step s e = some t →
        Run step start (trace ++ [(s, e)]) t

/-- A state that some run reaches. -/
def Reachable (step : σ → ε → Option σ) (start s : σ) : Prop :=
  ∃ trace, Run step start trace s

/-- What holds at the start and is kept by every step that meets `ok` holds at
the end of every run whose steps all meet `ok`. -/
theorem Run.invariant {I : σ → Prop} {start s : σ} {trace : List (σ × ε)}
    (hrun : Run step start trace s) (ok : σ → ε → Prop) (hstart : I start)
    (hstep : ∀ s e t, I s → ok s e → step s e = some t → I t)
    (hok : ∀ p ∈ trace, ok p.1 p.2) : I s := by
  induction hrun with
  | nil => exact hstart
  | snoc _ hs ih =>
      have hlast := hok _ (List.mem_append_right _ (List.mem_singleton_self _))
      have hbefore := ih fun p hp => hok p (List.mem_append_left _ hp)
      exact hstep _ _ _ hbefore hlast hs

theorem Run.always {I : σ → Prop} {start s : σ} {trace : List (σ × ε)}
    (hrun : Run step start trace s) (ok : σ → ε → Prop) (hstart : I start)
    (hstep : ∀ s e t, I s → ok s e → step s e = some t → I t)
    (hok : ∀ p ∈ trace, ok p.1 p.2) : (∀ p ∈ trace, I p.1) ∧ I s := by
  induction hrun with
  | nil => exact ⟨by simp, hstart⟩
  | @snoc trace s t e _ hs ih =>
      simp only [List.mem_append, List.mem_singleton, or_imp, forall_and,
        forall_eq] at hok ⊢
      obtain ⟨hbefore, hlast⟩ := ih hok.1
      exact ⟨⟨hbefore, hlast⟩, hstep _ _ _ hlast hok.2 hs⟩

theorem Reachable.invariant {I : σ → Prop} {start s : σ}
    (hreach : Reachable step start s) (hstart : I start)
    (hstep : ∀ s e t, I s → step s e = some t → I t) : I s := by
  obtain ⟨trace, hrun⟩ := hreach
  exact hrun.invariant (fun _ _ => True) hstart
    (fun s e t hs _ => hstep s e t hs) fun _ _ => trivial

theorem Run.reachable {start s : σ} {trace : List (σ × ε)}
    (hrun : Run step start trace s) : Reachable step start s :=
  ⟨trace, hrun⟩

theorem Reachable.refl (start : σ) : Reachable step start start :=
  ⟨[], .nil⟩

theorem Reachable.tail {start s t : σ} {e : ε}
    (hreach : Reachable step start s) (hs : step s e = some t) :
    Reachable step start t := by
  obtain ⟨trace, hrun⟩ := hreach
  exact ⟨trace ++ [(s, e)], hrun.snoc hs⟩

/-- What is seen of a state is reachable in a system of its own, if every step is a
step of that system or cannot be seen. -/
theorem Reachable.map {σ' ε' : Type*} {step' : σ' → ε' → Option σ'} {start s : σ}
    (hreach : Reachable step start s) (view : σ → σ')
    (hstep : ∀ s e t, step s e = some t →
      view t = view s ∨ ∃ e', step' (view s) e' = some (view t)) :
    Reachable step' (view start) (view s) := by
  refine hreach.invariant (I := fun s => Reachable step' (view start) (view s)) (.refl _) ?_
  intro s e t hs hst
  rcases hstep s e t hst with hsame | ⟨e', hs'⟩
  · rw [hsame]
    exact hs
  · exact hs.tail hs'

theorem Run.append {start s t : σ} {before after : List (σ × ε)}
    (hbefore : Run step start before s) (hafter : Run step s after t) :
    Run step start (before ++ after) t := by
  induction hafter with
  | nil => simpa using hbefore
  | snoc _ hs ih => simpa [← List.append_assoc] using ih.snoc hs

theorem Run.cons {s t u : σ} {e : ε} {trace : List (σ × ε)}
    (hs : step s e = some t) (hrun : Run step t trace u) :
    Run step s ((s, e) :: trace) u := by
  have hhead : Run step s [(s, e)] t := by simpa using Run.nil.snoc hs
  exact hhead.append hrun

theorem Reachable.run {start s t : σ} {trace : List (σ × ε)}
    (hreach : Reachable step start s) (hrun : Run step s trace t) :
    Reachable step start t := by
  obtain ⟨before, hbefore⟩ := hreach
  exact ⟨before ++ trace, hbefore.append hrun⟩

/-- A run passes through each of its recorded states: it can be cut before any
of its events. -/
theorem Run.split {start s t : σ} {e : ε} {trace before after : List (σ × ε)}
    (hrun : Run step start trace s) (htrace : trace = before ++ (t, e) :: after) :
    ∃ u, Run step start before t ∧ step t e = some u ∧ Run step u after s := by
  induction hrun generalizing after with
  | nil => simp at htrace
  | @snoc init r q d hinit hs ih =>
      rcases List.eq_nil_or_concat after with rfl | ⟨after', last, rfl⟩
      · obtain ⟨rfl, hlast⟩ := List.append_inj' htrace rfl
        obtain ⟨rfl, rfl⟩ := Prod.mk.inj (List.cons.inj hlast).1
        exact ⟨q, hinit, hs, .nil⟩
      · have hcut : init ++ [(r, d)] = (before ++ (t, e) :: after') ++ [last] := by
          simpa using htrace
        obtain ⟨rfl, hlast⟩ := List.append_inj' hcut rfl
        obtain ⟨u, hbefore, hte, hafter⟩ := ih rfl
        obtain rfl := (List.cons.inj hlast).1
        exact ⟨u, hbefore, hte, by simpa using hafter.snoc hs⟩

/-- The states that a run passes through, its end included. -/
def states (trace : List (σ × ε)) (s : σ) : List σ := trace.map Prod.fst ++ [s]

theorem Run.split_states {start s t : σ} {trace : List (σ × ε)}
    (hrun : Run step start trace s) (ht : t ∈ states trace s) :
    ∃ before after, trace = before ++ after ∧ Run step start before t ∧
      Run step t after s := by
  rcases List.mem_append.mp ht with hpassed | hlast
  · obtain ⟨⟨t, e⟩, hp, rfl⟩ := List.mem_map.mp hpassed
    obtain ⟨before, after, rfl⟩ := List.append_of_mem hp
    obtain ⟨u, hbefore, hs, hafter⟩ := hrun.split rfl
    have hfirst : Run step t [(t, e)] u := by simpa using Run.nil.snoc hs
    exact ⟨before, (t, e) :: after, rfl, hbefore, hfirst.append hafter⟩
  · obtain rfl := List.mem_singleton.mp hlast
    exact ⟨trace, [], (List.append_nil _).symm, hrun, .nil⟩

theorem Run.congr {step' : σ → ε → Option σ} {start s : σ} {trace : List (σ × ε)}
    (hrun : Run step start trace s)
    (h : ∀ p ∈ trace, step' p.1 p.2 = step p.1 p.2) : Run step' start trace s := by
  induction hrun with
  | nil => exact .nil
  | snoc _ hs ih =>
      have hlast := h _ (List.mem_append_right _ (List.mem_singleton_self _))
      refine (ih fun p hp => h p (List.mem_append_left _ hp)).snoc ?_
      exact hlast.trans hs

theorem Run.head_or_nil {s t : σ} {trace : List (σ × ε)}
    (hrun : Run step s trace t) :
    (trace = [] ∧ t = s) ∨ ∃ e rest, trace = (s, e) :: rest := by
  induction hrun with
  | nil => exact .inl ⟨rfl, rfl⟩
  | @snoc trace r t e _ hs ih =>
      rcases ih with ⟨rfl, rfl⟩ | ⟨d, rest, rfl⟩
      · exact .inr ⟨e, [], rfl⟩
      · exact .inr ⟨d, rest ++ [(r, e)], rfl⟩

theorem Run.next {P : σ → Prop} {start s : σ} {trace : List (σ × ε)}
    (hrun : Run step start trace s) (hall : ∀ p ∈ trace, P p.1) (hlast : P s)
    {p : σ × ε} (hp : p ∈ trace) :
    Reachable step start p.1 ∧ ∃ t, step p.1 p.2 = some t ∧ P t := by
  obtain ⟨before, after, rfl⟩ := List.append_of_mem hp
  obtain ⟨t, hbefore, hs, hafter⟩ := hrun.split rfl
  refine ⟨⟨before, hbefore⟩, t, hs, ?_⟩
  rcases hafter.head_or_nil with ⟨_, rfl⟩ | ⟨e, rest, rfl⟩
  · exact hlast
  · exact hall (t, e) (by simp)

/-- Where a good state steps to a good state exactly by the steps that meet
`ok`, a run stays in good states exactly if all its steps meet `ok`. -/
theorem Run.always_iff {P : σ → Prop} {start s : σ} {trace : List (σ × ε)}
    (hrun : Run step start trace s) (ok : σ → ε → Prop) (hstart : P start)
    (hstep : ∀ s e t, Reachable step start s → P s → step s e = some t →
      (P t ↔ ok s e)) :
    ((∀ p ∈ trace, P p.1) ∧ P s) ↔ ∀ p ∈ trace, ok p.1 p.2 := by
  induction hrun with
  | nil => simpa using hstart
  | @snoc trace s t e hbefore hs ih =>
      simp only [List.mem_append, List.mem_singleton, or_imp, forall_and,
        forall_eq]
      constructor
      · rintro ⟨⟨hall, hlast⟩, ht⟩
        exact ⟨ih.mp ⟨hall, hlast⟩, (hstep s e t hbefore.reachable hlast hs).mp ht⟩
      · rintro ⟨hok, hoklast⟩
        obtain ⟨hall, hlast⟩ := ih.mpr hok
        exact ⟨⟨hall, hlast⟩,
          (hstep s e t hbefore.reachable hlast hs).mpr hoklast⟩

/-- Where every step that counts is paid for by a decrease of the potential, no run
has more such steps than the potential at its start. -/
theorem Run.countP_add_le {start s : σ} {trace : List (σ × ε)}
    (hrun : Run step start trace s) (ok : σ → ε → Prop) (counts : σ → ε → Bool)
    (potential : σ → Nat)
    (hstep : ∀ s e t, ok s e → step s e = some t →
      potential t + (if counts s e then 1 else 0) ≤ potential s)
    (hok : ∀ p ∈ trace, ok p.1 p.2) :
    potential s + trace.countP (fun p => counts p.1 p.2) ≤ potential start := by
  induction hrun with
  | nil => simp
  | @snoc trace s t e _ hs ih =>
      have hbefore := ih fun p hp => hok p (List.mem_append_left _ hp)
      have hlast := hstep s e t
        (hok _ (List.mem_append_right _ (List.mem_singleton_self _))) hs
      simp only [List.countP_append, List.countP_singleton]
      omega

theorem run_of_sequence {states : Nat → σ} {events : Nat → ε}
    (hsteps : ∀ n, step (states n) (events n) = some (states (n + 1))) (n : Nat) :
    Run step (states 0) ((List.range n).map fun i => (states i, events i)) (states n) := by
  induction n with
  | zero => exact .nil
  | succ n ih =>
      rw [List.range_succ, List.map_append]
      exact ih.snoc (hsteps n)

theorem exists_countP_ge {events : Nat → ε} {P : ε → Bool}
    (hagain : ∀ n, ∃ m, n ≤ m ∧ P (events m) = true) (k : Nat) :
    ∃ n, k ≤ (List.range n).countP fun i => P (events i) := by
  induction k with
  | zero => exact ⟨0, Nat.zero_le _⟩
  | succ k ih =>
      obtain ⟨n, hn⟩ := ih
      obtain ⟨m, hm, hP⟩ := hagain n
      refine ⟨m + 1, ?_⟩
      rw [List.range_succ, List.countP_append, List.countP_singleton, if_pos hP]
      have hsub : (List.range n).Sublist (List.range m) := List.range_sublist.mpr hm
      have := hsub.countP_le (p := fun i => P (events i))
      omega

theorem states_snoc (trace : List (σ × ε)) (s t : σ) (e : ε) :
    states (trace ++ [(s, e)]) t = states trace s ++ [t] := by
  simp [states]

/-- Where two successive states are related exactly by the steps that meet `ok`,
every state of a run is related to the later ones exactly if all its steps meet
`ok`. -/
theorem Run.pairwise_iff {R : σ → σ → Prop} {start s : σ} {trace : List (σ × ε)}
    (hrun : Run step start trace s) (ok : σ → ε → Prop) (hrefl : ∀ s, R s s)
    (htrans : ∀ r s t, R r s → R s t → R r t)
    (hstep : ∀ s e t, Reachable step start s → step s e = some t →
      (R s t ↔ ok s e)) :
    (states trace s).Pairwise R ↔ ∀ p ∈ trace, ok p.1 p.2 := by
  induction hrun with
  | nil => simp [states]
  | @snoc trace s t e hbefore hs ih =>
      have hlast : ∀ r ∈ states trace s, (states trace s).Pairwise R → R r s := by
        intro r hr hpairwise
        rcases List.mem_append.mp hr with hpassed | hend
        · exact (List.pairwise_append.mp hpairwise).2.2 r hpassed s (by simp)
        · rw [List.mem_singleton.mp hend]
          exact hrefl s
      rw [states_snoc, List.pairwise_append]
      simp only [List.pairwise_singleton, List.mem_append, List.mem_singleton, or_imp,
        forall_and, forall_eq, true_and]
      constructor
      · rintro ⟨hpairwise, hall⟩
        have hs' : R s t := hall s (List.mem_append_right _ (by simp))
        exact ⟨ih.mp hpairwise, (hstep s e t hbefore.reachable hs).mp hs'⟩
      · rintro ⟨hok, hoklast⟩
        have hpairwise := ih.mpr hok
        refine ⟨hpairwise, fun r hr => htrans r s t (hlast r hr hpairwise) ?_⟩
        exact (hstep s e t hbefore.reachable hs).mpr hoklast

/-- Execute a list of events. -/
def replay (step : σ → ε → Option σ) : σ → List ε → Option σ
  | s, [] => some s
  | s, e :: es => (step s e).bind fun t => replay step t es

theorem replay_append {s t u : σ} {es fs : List ε}
    (hes : replay step s es = some t) (hfs : replay step t fs = some u) :
    replay step s (es ++ fs) = some u := by
  induction es generalizing s with
  | nil =>
      obtain rfl : s = t := by simpa [replay] using hes
      exact hfs
  | cons e es ih =>
      obtain ⟨r, hr, htail⟩ := Option.bind_eq_some_iff.mp hes
      rw [List.cons_append, replay, hr]
      exact ih htail

theorem replay_cons {s t u : σ} {e : ε} {es : List ε} (hs : step s e = some t)
    (hes : replay step t es = some u) : replay step s (e :: es) = some u := by
  rw [replay, hs]
  exact hes

/-- The trace that executing a list of events leaves. -/
def traceOf (step : σ → ε → Option σ) : σ → List ε → List (σ × ε)
  | _, [] => []
  | s, e :: es =>
      (s, e) :: (match step s e with
        | some t => traceOf step t es
        | none => [])

theorem event_mem_of_mem_traceOf {s : σ} {es : List ε} {p : σ × ε}
    (h : p ∈ traceOf step s es) : p.2 ∈ es := by
  induction es generalizing s with
  | nil => cases h
  | cons e es ih =>
      rcases List.mem_cons.mp h with rfl | htail
      · exact List.mem_cons_self
      · split at htail
        · exact List.mem_cons_of_mem e (ih htail)
        · cases htail

theorem run_of_replay {s t : σ} {es : List ε} (h : replay step s es = some t) :
    Run step s (traceOf step s es) t := by
  induction es generalizing s with
  | nil =>
      obtain rfl : s = t := by simpa [replay] using h
      exact .nil
  | cons e es ih =>
      obtain ⟨u, hu, htail⟩ := Option.bind_eq_some_iff.mp h
      simpa [traceOf, hu] using (ih htail).cons hu

end Modularis.Foundation.StepSystem
