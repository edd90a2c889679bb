import Mathlib.Logic.Function.Basic
import Modularis.Foundation.StepSystem

/-!
Programs that call operations of a shared service.  A program runs alone or in a
pool of invocations that take turns, one operation at a time.  What holds of a
pool is derived from what each program guarantees on the assumption that the
others keep to what it relies on.
-/

namespace Modularis.Foundation

/-- A program that calls operations and goes on with their replies. -/
inductive Program {Op : Type} (Reply : Op → Type) (α : Type) where
  | done (value : α)
  | call (op : Op) (next : Reply op → Program Reply α)

namespace Program

variable {Op : Type} {Reply : Op → Type} {α β σ χ : Type}

/-- One program after another. -/
protected def bind : Program Reply α → (α → Program Reply β) → Program Reply β
  | done value, f => f value
  | call op next, f => call op fun reply => (next reply).bind f

instance : Monad (Program Reply) where
  pure := done
  bind := Program.bind

/-- Call one operation. -/
def perform (op : Op) : Program Reply (Reply op) := call op done

theorem pure_bind (value : α) (f : α → Program Reply β) :
    (pure value : Program Reply α) >>= f = f value := rfl

theorem bind_pure (p : Program Reply α) : p >>= pure = p := by
  induction p with
  | done value => rfl
  | call op next ih => exact congrArg (call op) (funext ih)

/-- Run a program alone.  `act` carries an operation out and `choice n` is what
the environment contributes to the `n`-th operation. -/
def run (act : σ → (op : Op) → χ → Reply op × σ) :
    Program Reply α → (Nat → χ) → σ → α × σ
  | done value, _, s => (value, s)
  | call op next, choice, s =>
      let result := act s op (choice 0)
      (next result.1).run act (fun n => choice (n + 1)) result.2

/-- Whatever the replies, the program changes nothing and its value meets `post`. -/
def Quiet (act : σ → (op : Op) → χ → Reply op × σ) (post : α → Prop) :
    Program Reply α → Prop
  | done value => post value
  | call op next =>
      (∀ s choice, (act s op choice).2 = s) ∧
        ∀ reply, (next reply).Quiet act post

theorem Quiet.bind {act : σ → (op : Op) → χ → Reply op × σ} {mid : α → Prop}
    {post : β → Prop} {p : Program Reply α} {f : α → Program Reply β}
    (hp : p.Quiet act mid) (hf : ∀ value, mid value → (f value).Quiet act post) :
    (p >>= f).Quiet act post := by
  induction p with
  | done value => exact hf value hp
  | call op next ih => exact ⟨hp.1, fun reply => ih reply (hp.2 reply)⟩

theorem run_perform_bind {act : σ → (op : Op) → χ → Reply op × σ} {op : Op}
    {choice : Nat → χ} {s t : σ} {reply : Reply op}
    (h : act s op (choice 0) = (reply, t)) (f : Reply op → Program Reply β) :
    (perform op >>= f).run act choice s =
      (f reply).run act (fun n => choice (n + 1)) t := by
  have hrun : (perform op >>= f).run act choice s =
      (f (act s op (choice 0)).1).run act (fun n => choice (n + 1))
        (act s op (choice 0)).2 := rfl
  rw [hrun, h]

/-- A program runs up to its value, and what is bound to it goes on from there. -/
theorem run_bind (act : σ → (op : Op) → χ → Reply op × σ) (p : Program Reply α)
    (f : α → Program Reply β) (choice : Nat → χ) (s : σ) :
    ∃ k, (p >>= f).run act choice s =
      (f (p.run act choice s).1).run act (fun n => choice (n + k))
        (p.run act choice s).2 := by
  induction p generalizing choice s with
  | done value => exact ⟨0, rfl⟩
  | call op next ih =>
      obtain ⟨k, hk⟩ := ih (act s op (choice 0)).1 (fun n => choice (n + 1))
        (act s op (choice 0)).2
      exact ⟨k + 1, hk⟩

/-- The operations that a program calls when it runs alone. -/
def called (act : σ → (op : Op) → χ → Reply op × σ) :
    Program Reply α → (Nat → χ) → σ → List Op
  | done _, _, _ => []
  | call op next, choice, s =>
      let result := act s op (choice 0)
      op :: (next result.1).called act (fun n => choice (n + 1)) result.2

/-- Run alone, `p` comes to `q` after the operations `ops`. -/
structure Leads (act : σ → (op : Op) → χ → Reply op × σ) (p : Program Reply α)
    (choice : Nat → χ) (s : σ) (ops : List Op) (q : Program Reply α)
    (choice' : Nat → χ) (t : σ) : Prop where
  run : p.run act choice s = q.run act choice' t
  called : p.called act choice s = ops ++ q.called act choice' t

section Leads

variable {act : σ → (op : Op) → χ → Reply op × σ} {p q r : Program Reply α}
  {choice choice' choice'' : Nat → χ} {s t u : σ} {ops ops' : List Op}

theorem Leads.refl (act : σ → (op : Op) → χ → Reply op × σ) (p : Program Reply α)
    (choice : Nat → χ) (s : σ) : Leads act p choice s [] p choice s :=
  ⟨rfl, rfl⟩

theorem Leads.trans (hpq : Leads act p choice s ops q choice' t)
    (hqr : Leads act q choice' t ops' r choice'' u) :
    Leads act p choice s (ops ++ ops') r choice'' u where
  run := hpq.run.trans hqr.run
  called := by rw [hpq.called, hqr.called, List.append_assoc]

theorem leads_call {op : Op} {reply : Reply op} {next : Reply op → Program Reply α}
    (h : act s op (choice 0) = (reply, t)) :
    Leads act (.call op next) choice s [op] (next reply) (fun n => choice (n + 1)) t := by
  constructor
  · simp only [Program.run, h]
  · simp only [Program.called, h, List.singleton_append]

theorem leads_perform_bind {op : Op} {reply : Reply op} {f : Reply op → Program Reply α}
    (h : act s op (choice 0) = (reply, t)) (hf : f reply = q) :
    Leads act (perform op >>= f) choice s [op] q (fun n => choice (n + 1)) t :=
  hf ▸ leads_call h

end Leads

/-- Every operation that the program calls meets `ok`, whatever the replies. -/
def Calls (ok : Op → Prop) : Program Reply α → Prop
  | done _ => True
  | call op next => ok op ∧ ∀ reply, (next reply).Calls ok

theorem calls_of_forall {ok : Op → Prop} (p : Program Reply α) (h : ∀ op, ok op) :
    p.Calls ok := by
  induction p with
  | done => exact trivial
  | call op next ih => exact ⟨h op, ih⟩

theorem Calls.mono {ok ok' : Op → Prop} {p : Program Reply α} (hp : p.Calls ok)
    (h : ∀ op, ok op → ok' op) : p.Calls ok' := by
  induction p with
  | done => exact trivial
  | call op next ih => exact ⟨h op hp.1, fun reply => ih reply (hp.2 reply)⟩

theorem Calls.bind {ok : Op → Prop} {p : Program Reply α}
    {f : α → Program Reply β} (hp : p.Calls ok) (hf : ∀ value, (f value).Calls ok) :
    (p >>= f).Calls ok := by
  induction p with
  | done value => exact hf value
  | call op next ih => exact ⟨hp.1, fun reply => ih reply (hp.2 reply)⟩

theorem Calls.called {ok : Op → Prop} {p : Program Reply α} (hp : p.Calls ok)
    (act : σ → (op : Op) → χ → Reply op × σ) (choice : Nat → χ) (s : σ) :
    ∀ op ∈ p.called act choice s, ok op := by
  induction p generalizing choice s with
  | done => simp [Program.called]
  | call op next ih =>
      simp only [Program.called, List.forall_mem_cons]
      exact ⟨hp.1, ih _ (hp.2 _) _ _⟩

theorem Calls.run_rel {ok : Op → Prop} {act : σ → (op : Op) → χ → Reply op × σ}
    {R : σ → σ → Prop} {p : Program Reply α} (hp : p.Calls ok) (hrefl : ∀ s, R s s)
    (htrans : ∀ s t u, R s t → R t u → R s u)
    (h : ∀ op, ok op → ∀ s choice, R s (act s op choice).2) (choice : Nat → χ) (s : σ) :
    R s (p.run act choice s).2 := by
  induction p generalizing choice s with
  | done => exact hrefl s
  | call op next ih =>
      exact htrans _ _ _ (h op hp.1 s (choice 0)) (ih _ (hp.2 _) _ _)

/-- An operation that was called and what it replied. -/
abbrev Exchange {Op : Type} (Reply : Op → Type) := (op : Op) × Reply op

/-- The operations that a program calls when it runs alone, with their replies. -/
def transcript (act : σ → (op : Op) → χ → Reply op × σ) :
    Program Reply α → (Nat → χ) → σ → List (Exchange Reply)
  | done _, _, _ => []
  | call op next, choice, s =>
      let result := act s op (choice 0)
      ⟨op, result.1⟩ ::
        (next result.1).transcript act (fun n => choice (n + 1)) result.2

/-- Whatever the replies, the exchanges of the program and its value meet `post`. -/
def Meets : Program Reply α → (List (Exchange Reply) → α → Prop) → Prop
  | done value, post => post [] value
  | call op next, post =>
      ∀ reply, (next reply).Meets fun exchanges => post (⟨op, reply⟩ :: exchanges)

section Meets

variable {post post' : List (Exchange Reply) → α → Prop} {p : Program Reply α}

theorem Meets.mono (hp : p.Meets post)
    (h : ∀ exchanges value, post exchanges value → post' exchanges value) :
    p.Meets post' := by
  induction p generalizing post post' with
  | done value => exact h [] value hp
  | call op next ih =>
      exact fun reply => ih reply (hp reply) fun exchanges => h (⟨op, reply⟩ :: exchanges)

theorem Meets.bind {post : List (Exchange Reply) → β → Prop}
    {f : α → Program Reply β}
    (hp : p.Meets fun exchanges value =>
      (f value).Meets fun exchanges' => post (exchanges ++ exchanges')) :
    (p >>= f).Meets post := by
  induction p generalizing post with
  | done value => exact hp
  | call op next ih => exact fun reply => ih reply (hp reply)

theorem Meets.and (hp : p.Meets post) (hp' : p.Meets post') :
    p.Meets fun exchanges value => post exchanges value ∧ post' exchanges value := by
  induction p generalizing post post' with
  | done value => exact ⟨hp, hp'⟩
  | call op next ih => exact fun reply => ih reply (hp reply) (hp' reply)

theorem meets_of_forall (p : Program Reply α) (h : ∀ exchanges value, post exchanges value) :
    p.Meets post := by
  induction p generalizing post with
  | done value => exact h [] value
  | call op next ih => exact fun reply => ih reply fun exchanges => h _

theorem Calls.meets {ok : Op → Prop} (hp : p.Calls ok) :
    p.Meets fun exchanges _ => ∀ exchange ∈ exchanges, ok exchange.1 := by
  induction p with
  | done value => simp [Meets]
  | call op next ih =>
      refine fun reply => (ih reply (hp.2 reply)).mono fun exchanges _ hall => ?_
      exact List.forall_mem_cons.mpr ⟨hp.1, hall⟩

theorem Meets.of_run (hp : p.Meets post) (act : σ → (op : Op) → χ → Reply op × σ)
    (choice : Nat → χ) (s : σ) :
    post (p.transcript act choice s) (p.run act choice s).1 := by
  induction p generalizing post choice s with
  | done value => exact hp
  | call op next ih => exact ih _ (hp _) (fun n => choice (n + 1)) _

end Meets

/-- `act` where others change the state after each operation. -/
def disturbed (act : σ → (op : Op) → χ → Reply op × σ) (s : σ) (op : Op)
    (turn : χ × (σ → σ)) : Reply op × σ :=
  let result := act s op turn.1
  (result.1, turn.2 result.2)

theorem Quiet.run_bind {act : σ → (op : Op) → χ → Reply op × σ} {mid : α → Prop}
    {p : Program Reply α} (hp : p.Quiet act mid) (f : α → Program Reply β)
    {inv : σ → Prop} {turns : Nat → χ × (σ → σ)}
    (hturns : ∀ n s, inv s → inv ((turns n).2 s)) {s : σ} (hs : inv s) :
    ∃ value k t, mid value ∧ inv t ∧ (p >>= f).run (disturbed act) turns s =
      (f value).run (disturbed act) (fun n => turns (n + k)) t := by
  induction p generalizing turns s with
  | done value => exact ⟨value, 0, s, hp, hs, rfl⟩
  | call op next ih =>
      have hkept := hturns 0 _ ((hp.1 s (turns 0).1).symm ▸ hs)
      obtain ⟨value, k, t, hvalue, ht, hrun⟩ :=
        ih _ (hp.2 _) (fun n => hturns (n + 1)) hkept
      exact ⟨value, k + 1, t, hvalue, ht, hrun⟩

/-- What a program may assume and has to keep.  `rely` relates two states
between which only other programs acted. -/
structure Contract {Op : Type} (Reply : Op → Type) (σ χ : Type) where
  act : σ → (op : Op) → χ → Reply op × σ
  inv : σ → Prop
  rely : σ → σ → Prop
  guar : σ → σ → Prop
  rely_refl : ∀ s, rely s s
  rely_trans : ∀ s t u, rely s t → rely t u → rely s u
  guar_refl : ∀ s, guar s s
  inv_of_guar : ∀ s t, inv s → guar s t → inv t

/-- From `s` on every operation of the program is within the guarantee, and its
value meets `post`, whatever the others do. -/
def Safe (C : Contract Reply σ χ) (post : α → σ → Prop) :
    Program Reply α → σ → Prop
  | done value, s => ∀ t, C.rely s t → C.inv t → post value t
  | call op next, s => ∀ t, C.rely s t → C.inv t → ∀ choice,
      C.guar t (C.act t op choice).2 ∧
        (next (C.act t op choice).1).Safe C post (C.act t op choice).2

section Safe

variable {C : Contract Reply σ χ} {s t : σ}

theorem Safe.mono {post : α → σ → Prop} {p : Program Reply α}
    (h : p.Safe C post s) (hrely : C.rely s t) : p.Safe C post t := by
  cases p with
  | done => exact fun u hu => h u (C.rely_trans s t u hrely hu)
  | call => exact fun u hu => h u (C.rely_trans s t u hrely hu)

theorem safe_perform_bind {post : α → σ → Prop} {op : Op}
    {f : Reply op → Program Reply α}
    (h : ∀ t, C.rely s t → C.inv t → ∀ choice,
      C.guar t (C.act t op choice).2 ∧
        (f (C.act t op choice).1).Safe C post (C.act t op choice).2) :
    (perform op >>= f).Safe C post s := h

theorem Safe.bind {mid : α → σ → Prop} {post : β → σ → Prop}
    {p : Program Reply α} {f : α → Program Reply β} (hp : p.Safe C mid s)
    (hinv : C.inv s)
    (hf : ∀ value t, C.inv t → mid value t → (f value).Safe C post t) :
    (p >>= f).Safe C post s := by
  induction p generalizing s with
  | done value => exact hf value s hinv (hp s (C.rely_refl s) hinv)
  | call op next ih =>
      intro t hrely ht choice
      obtain ⟨hguar, hnext⟩ := hp t hrely ht choice
      exact ⟨hguar, ih _ hnext (C.inv_of_guar t _ ht hguar)⟩

theorem Safe.with_stable {post : α → σ → Prop} {Q : σ → Prop} {p : Program Reply α}
    (hp : p.Safe C post s) (hs : Q s) (hrely : ∀ t u, Q t → C.rely t u → Q u)
    (hguar : ∀ t u, Q t → C.guar t u → Q u) :
    p.Safe C (fun value t => post value t ∧ Q t) s := by
  induction p generalizing s with
  | done value => exact fun t hst ht => ⟨hp t hst ht, hrely s t hs hst⟩
  | call op next ih =>
      intro t hst ht choice
      obtain ⟨hop, hnext⟩ := hp t hst ht choice
      exact ⟨hop, ih _ hnext (hguar t _ (hrely s t hs hst) hop)⟩

theorem Quiet.safe {mid : α → Prop} {post : α → σ → Prop} {p : Program Reply α}
    (hp : p.Quiet C.act mid) (h : ∀ value t, mid value → post value t) :
    p.Safe C post s := by
  induction p generalizing s with
  | done value => exact fun t _ _ => h value t hp
  | call op next ih =>
      intro t _ _ choice
      rw [hp.1 t choice]
      exact ⟨C.guar_refl t, ih _ (hp.2 _)⟩

theorem Quiet.safe_of_rely {mid : α → Prop} {post : α → σ → Prop}
    {p : Program Reply α} (hp : p.Quiet C.act mid)
    (h : ∀ value t, C.rely s t → C.inv t → mid value → post value t) :
    p.Safe C post s := by
  induction p generalizing s with
  | done value => exact fun t hrely ht => h value t hrely ht hp
  | call op next ih =>
      intro t hrely ht choice
      rw [hp.1 t choice]
      refine ⟨C.guar_refl t, ih _ (hp.2 _) fun value u hu => ?_⟩
      exact h value u (C.rely_trans s t u hrely hu)

theorem Calls.safe {ok : Op → Prop} {post : α → σ → Prop} {p : Program Reply α}
    (hp : p.Calls ok)
    (hok : ∀ op, ok op → ∀ t, C.inv t → ∀ choice, C.guar t (C.act t op choice).2)
    (hpost : ∀ value t, C.inv t → post value t) : p.Safe C post s := by
  induction p generalizing s with
  | done value => exact fun t _ ht => hpost value t ht
  | call op next ih =>
      exact fun t _ ht choice => ⟨hok op hp.1 t ht choice, ih _ (hp.2 _)⟩

theorem Calls.safe_of_stable {ok : Op → Prop} {Q : σ → Prop} {post : α → σ → Prop}
    {p : Program Reply α} (hp : p.Calls ok) (hs : Q s)
    (hrely : ∀ t u, Q t → C.rely t u → Q u)
    (hok : ∀ op, ok op → ∀ t, Q t → ∀ choice,
      C.guar t (C.act t op choice).2 ∧ Q (C.act t op choice).2)
    (hpost : ∀ value t, Q t → post value t) : p.Safe C post s := by
  induction p generalizing s with
  | done value => exact fun t hst _ => hpost value t (hrely s t hs hst)
  | call op next ih =>
      intro t hst _ choice
      obtain ⟨hguar, hQ⟩ := hok op hp.1 t (hrely s t hs hst) choice
      exact ⟨hguar, ih _ (hp.2 _) hQ⟩

theorem Quiet.safe_bind {mid : α → Prop} {post : β → σ → Prop}
    {p : Program Reply α} {f : α → Program Reply β} (hp : p.Quiet C.act mid)
    (hinv : C.inv s)
    (hf : ∀ value t, C.rely s t → C.inv t → mid value → (f value).Safe C post t) :
    (p >>= f).Safe C post s := by
  induction p generalizing s with
  | done value => exact hf value s (C.rely_refl s) hinv hp
  | call op next ih =>
      intro t hrely ht choice
      have hsame := hp.1 t choice
      rw [hsame]
      refine ⟨C.guar_refl t, ih _ (hp.2 _) ht fun value u hu => ?_⟩
      exact hf value u (C.rely_trans s t u hrely hu)

end Safe

end Program

/-- One call of a program, `rest` of which is still to be run; it is `none` once
the call was cut off. -/
structure Invocation {Op : Type} (Reply : Op → Type) (ρ α : Type) where
  request : ρ
  rest : Option (Program Reply α)

/-- A shared state and the invocations under their ids. -/
structure Pool {Op : Type} (Reply : Op → Type) (ι ρ α σ : Type) where
  shared : σ
  invocations : ι → Option (Invocation Reply ρ α)

namespace Pool

variable {Op : Type} {Reply : Op → Type} {ι ρ α σ χ : Type}

/-- An invocation is started, makes its next call, or is given up. -/
inductive Event (ι ρ χ : Type) where
  | start (i : ι) (request : ρ)
  | act (i : ι) (choice : χ)
  | stop (i : ι)

def Event.invocation : Event ι ρ χ → ι
  | .start i _ | .act i _ | .stop i => i

/-- Nobody has called yet. -/
def init (s : σ) : Pool Reply ι ρ α σ where
  shared := s
  invocations := fun _ => none

/-- How the invocations of a pool get along: `inv` holds throughout, `guar` is
what an operation of an invocation may do and `rely` what its invocation may
see the others do.  `ready` holds of the ids that are not in use. -/
structure Rules (act : ι → ρ → σ → (op : Op) → χ → Reply op × σ) where
  inv : σ → Prop
  rely : ι → σ → σ → Prop
  guar : ι → ρ → σ → σ → Prop
  ready : ι → σ → Prop
  rely_refl : ∀ i s, rely i s s
  rely_trans : ∀ i s t u, rely i s t → rely i t u → rely i s u
  guar_refl : ∀ i request s, guar i request s s
  inv_of_guar : ∀ i request s t, inv s → guar i request s t → inv t
  rely_of_guar : ∀ i j request s t, i ≠ j → inv s → guar j request s t → rely i s t
  ready_of_rely : ∀ i s t, ready i s → rely i s t → ready i t

/-- The rules as one invocation sees them. -/
def Rules.contract {act : ι → ρ → σ → (op : Op) → χ → Reply op × σ}
    (R : Rules act) (i : ι) (request : ρ) : Program.Contract Reply σ χ where
  act := act i request
  inv := R.inv
  rely := R.rely i
  guar := R.guar i request
  rely_refl := R.rely_refl i
  rely_trans := R.rely_trans i
  guar_refl := R.guar_refl i request
  inv_of_guar := R.inv_of_guar i request

section Rules

variable {act : ι → ρ → σ → (op : Op) → χ → Reply op × σ} (R : Rules act)
  (post : ι → ρ → α → σ → Prop)

/-- An invocation is safe from here on; an unused id is ready. -/
def Follows (i : ι) (s : σ) : Option (Invocation Reply ρ α) → Prop
  | none => R.ready i s
  | some { request := request, rest := some p } =>
      p.Safe (R.contract i request) (post i request) s
  | some { rest := none, .. } => True

/-- The shared state keeps the invariant, and every invocation follows the rules from
where it stands. -/
structure Orderly (w : Pool Reply ι ρ α σ) : Prop where
  inv : R.inv w.shared
  follows : ∀ i, Follows R post i w.shared (w.invocations i)

variable {R post}

theorem Follows.mono {i : ι} {s t : σ} {invocation : Option (Invocation Reply ρ α)}
    (h : Follows R post i s invocation) (hrely : R.rely i s t) :
    Follows R post i t invocation := by
  match invocation with
  | none => exact R.ready_of_rely i s t h hrely
  | some { rest := some _, .. } => exact Program.Safe.mono h hrely
  | some { rest := none, .. } => exact trivial

theorem Orderly.guar {w : Pool Reply ι ρ α σ} (h : Orderly R post w) {i : ι}
    {request : ρ} {op : Op} {next : Reply op → Program Reply α}
    (hrunning : w.invocations i =
      some { request := request, rest := some (.call op next) }) (choice : χ) :
    R.guar i request w.shared (act i request w.shared op choice).2 := by
  have hfollows := h.follows i
  rw [hrunning] at hfollows
  exact (hfollows w.shared (R.rely_refl i _) h.inv choice).1

theorem orderly_init {s : σ} (hinv : R.inv s) (hready : ∀ i, R.ready i s) :
    Orderly R post (init s) := ⟨hinv, hready⟩

theorem Orderly.external {w : Pool Reply ι ρ α σ} (h : Orderly R post w) {t : σ}
    (hinv : R.inv t) (hrely : ∀ i, R.rely i w.shared t) :
    Orderly R post { w with shared := t } :=
  ⟨hinv, fun i => (h.follows i).mono (hrely i)⟩

end Rules

section Steps

variable [DecidableEq ι]

def set (w : Pool Reply ι ρ α σ) (i : ι) (invocation : Invocation Reply ρ α) :
    Pool Reply ι ρ α σ :=
  { w with invocations := Function.update w.invocations i (some invocation) }

/-- A step of the pool; `program` says what a request runs, and `act` what a call does. -/
def step (program : ρ → Program Reply α)
    (act : ι → ρ → σ → (op : Op) → χ → Reply op × σ)
    (w : Pool Reply ι ρ α σ) : Event ι ρ χ → Option (Pool Reply ι ρ α σ)
  | .start i request =>
      match w.invocations i with
      | none => some (w.set i { request := request, rest := some (program request) })
      | some _ => none
  | .act i choice =>
      match w.invocations i with
      | some { request := request, rest := some (.call op next) } =>
          let result := act i request w.shared op choice
          some (set { w with shared := result.2 } i
            { request := request, rest := some (next result.1) })
      | _ => none
  | .stop i =>
      match w.invocations i with
      | some invocation => some (w.set i { invocation with rest := none })
      | none => none

variable {program : ρ → Program Reply α}
  {act : ι → ρ → σ → (op : Op) → χ → Reply op × σ} {R : Rules act}
  {post : ι → ρ → α → σ → Prop}

theorem step_act {w w' : Pool Reply ι ρ α σ} {i : ι} {choice : χ}
    (hstep : w.step program act (.act i choice) = some w') :
    ∃ request op next,
      w.invocations i = some { request := request, rest := some (.call op next) } ∧
      w'.shared = (act i request w.shared op choice).2 := by
  simp only [Pool.step] at hstep
  split at hstep
  · rename_i request op next hrunning
    obtain rfl := Option.some.inj hstep
    exact ⟨request, op, next, hrunning, rfl⟩
  · cases hstep

theorem shared_of_step {w w' : Pool Reply ι ρ α σ} {e : Event ι ρ χ}
    (he : ∀ i choice, e ≠ .act i choice) (hstep : w.step program act e = some w') :
    w'.shared = w.shared := by
  cases e with
  | act i choice => exact absurd rfl (he i choice)
  | start | stop =>
      simp only [Pool.step] at hstep
      split at hstep
      · obtain rfl := Option.some.inj hstep
        rfl
      · cases hstep

theorem invocations_of_step {w w' : Pool Reply ι ρ α σ} {e : Event ι ρ χ}
    (hstep : w.step program act e = some w') {j : ι}
    (hj : ∀ i, e.invocation = i → j ≠ i) : w'.invocations j = w.invocations j := by
  cases e with
  | _ =>
      simp only [Pool.step] at hstep
      split at hstep
      · obtain rfl := Option.some.inj hstep
        exact Function.update_of_ne (hj _ rfl) _ _
      · cases hstep

theorem kept_of_step {w w' : Pool Reply ι ρ α σ} {e : Event ι ρ χ}
    (hstep : w.step program act e = some w') {i : ι} {invocation : Invocation Reply ρ α}
    (hi : w.invocations i = some invocation) :
    ∃ rest, w'.invocations i = some { request := invocation.request, rest := rest } := by
  by_cases he : e.invocation = i
  · subst he
    cases e with
    | start j request =>
        simp only [Pool.step, Event.invocation] at hstep hi
        rw [hi] at hstep
        cases hstep
    | act j choice =>
        simp only [Pool.step, Event.invocation] at hstep hi
        rw [hi] at hstep
        split at hstep
        · rename_i hrunning
          obtain rfl := Option.some.inj hrunning
          obtain rfl := Option.some.inj hstep
          exact ⟨_, Function.update_self _ _ _⟩
        · cases hstep
    | stop j =>
        simp only [Pool.step, Event.invocation] at hstep hi
        rw [hi] at hstep
        obtain rfl := Option.some.inj hstep
        exact ⟨_, Function.update_self _ _ _⟩
  · refine ⟨invocation.rest, ?_⟩
    rw [invocations_of_step hstep fun j hj hij => he (hj.trans hij.symm)]
    exact hi

theorem started_of_step {w w' : Pool Reply ι ρ α σ} {e : Event ι ρ χ}
    (hstep : w.step program act e = some w') {i : ι} {invocation : Invocation Reply ρ α}
    (hi : w'.invocations i = some invocation) :
    e = .start i invocation.request ∨
      ∃ rest, w.invocations i = some { request := invocation.request, rest := rest } := by
  cases hbefore : w.invocations i with
  | some earlier =>
      obtain ⟨rest, hlater⟩ := kept_of_step hstep hbefore
      obtain rfl := Option.some.inj (hi.symm.trans hlater)
      exact .inr ⟨earlier.rest, rfl⟩
  | none =>
      have he : e.invocation = i := by
        by_contra hne
        rw [invocations_of_step hstep fun j hj hij => hne (hj.trans hij.symm),
          hbefore] at hi
        cases hi
      subst he
      cases e with
      | start j request =>
          simp only [Pool.step, Event.invocation] at hstep hi hbefore
          rw [hbefore] at hstep
          obtain rfl := Option.some.inj hstep
          simp only [Pool.set, Function.update_self] at hi
          obtain rfl := Option.some.inj hi
          exact .inl rfl
      | act j choice | stop j =>
          simp only [Pool.step, Event.invocation] at hstep hbefore
          rw [hbefore] at hstep
          cases hstep

theorem untouched_of_replay {es : List (Event ι ρ χ)} {w w' : Pool Reply ι ρ α σ}
    (hes : StepSystem.replay (Pool.step program act) w es = some w') {j : ι}
    (hj : ∀ e ∈ es, e.invocation ≠ j) : w'.invocations j = w.invocations j := by
  induction es generalizing w with
  | nil =>
      obtain rfl : w = w' := by simpa [StepSystem.replay] using hes
      rfl
  | cons e es ih =>
      obtain ⟨u, hu, htail⟩ := Option.bind_eq_some_iff.mp hes
      rw [ih htail fun d hd => hj d (List.mem_cons_of_mem e hd)]
      refine invocations_of_step hu ?_
      rintro i rfl rfl
      exact hj e List.mem_cons_self rfl

/-- No invocation was cut off. -/
def Alive (w : Pool Reply ι ρ α σ) : Prop :=
  ∀ i invocation, w.invocations i = some invocation → invocation.rest.isSome

omit [DecidableEq ι] in
theorem alive_init (s : σ) : (init s : Pool Reply ι ρ α σ).Alive := by
  simp [Alive, init]

theorem Alive.set {w : Pool Reply ι ρ α σ} (h : w.Alive) (t : σ) (i : ι)
    (request : ρ) (p : Program Reply α) :
    (Pool.set { w with shared := t } i
      { request := request, rest := some p }).Alive := by
  intro j invocation hj
  by_cases hij : j = i
  · subst hij
    simp only [Pool.set, Function.update_self, Option.some.injEq] at hj
    rw [← hj]
    rfl
  · simp only [Pool.set, Function.update_of_ne hij] at hj
    exact h j invocation hj

theorem Alive.step {w w' : Pool Reply ι ρ α σ} (h : w.Alive) {e : Event ι ρ χ}
    (he : ∀ i, e ≠ .stop i) (hstep : w.step program act e = some w') : w'.Alive := by
  cases e with
  | stop i => exact absurd rfl (he i)
  | start | act =>
      simp only [Pool.step] at hstep
      split at hstep
      · obtain rfl := Option.some.inj hstep
        exact h.set _ _ _ _
      · cases hstep

theorem Orderly.set {w : Pool Reply ι ρ α σ} (h : Orderly R post w) {t : σ}
    (hinv : R.inv t) {i : ι} (hrely : ∀ j, j ≠ i → R.rely j w.shared t)
    {invocation : Invocation Reply ρ α}
    (hfollows : Follows R post i t (some invocation)) :
    Orderly R post (Pool.set { w with shared := t } i invocation) := by
  refine ⟨hinv, fun j => ?_⟩
  by_cases hj : j = i
  · subst hj
    simpa [Pool.set] using hfollows
  · have hother := (h.follows j).mono (hrely j hj)
    simpa [Pool.set, hj] using hother

/-- The state that a step leaves, and which invocation answers for it. -/
inductive Moved (R : Rules act) (w : Pool Reply ι ρ α σ) (t : σ) : Prop
  | kept : t = w.shared → Moved R w t
  | acted (i : ι) (invocation : Invocation Reply ρ α) :
      w.invocations i = some invocation →
        R.guar i invocation.request w.shared t → Moved R w t

theorem Orderly.step (hsafe : ∀ i request s, R.inv s → R.ready i s →
      (program request).Safe (R.contract i request) (post i request) s)
    {w w' : Pool Reply ι ρ α σ} (h : Orderly R post w) {e : Event ι ρ χ}
    (hstep : w.step program act e = some w') :
    Orderly R post w' ∧ Moved R w w'.shared := by
  cases e with
  | start i request =>
      simp only [Pool.step] at hstep
      split at hstep
      · rename_i hunused
        obtain rfl := Option.some.inj hstep
        have hready := h.follows i
        rw [hunused] at hready
        have hfollows := hsafe i request w.shared h.inv hready
        exact ⟨h.set h.inv (fun j _ => R.rely_refl j _) hfollows, .kept rfl⟩
      · cases hstep
  | act i choice =>
      simp only [Pool.step] at hstep
      split at hstep
      · rename_i request op next hrunning
        obtain rfl := Option.some.inj hstep
        have hfollows := h.follows i
        rw [hrunning] at hfollows
        obtain ⟨hguar, hnext⟩ :=
          hfollows w.shared (R.rely_refl i _) h.inv choice
        refine ⟨h.set (R.inv_of_guar i request _ _ h.inv hguar) ?_ hnext,
          .acted i _ hrunning hguar⟩
        exact fun j hj => R.rely_of_guar j i request _ _ hj h.inv hguar
      · cases hstep
  | stop i =>
      simp only [Pool.step] at hstep
      split at hstep
      · obtain rfl := Option.some.inj hstep
        exact ⟨h.set h.inv (fun j _ => R.rely_refl j _) trivial, .kept rfl⟩
      · cases hstep

theorem orderly_of_reachable (hsafe : ∀ i request s, R.inv s → R.ready i s →
      (program request).Safe (R.contract i request) (post i request) s)
    {s : σ} (hinv : R.inv s) (hready : ∀ i, R.ready i s)
    {w : Pool Reply ι ρ α σ}
    (hreach : StepSystem.Reachable (Pool.step program act) (init s) w) :
    Orderly R post w :=
  hreach.invariant (orderly_init hinv hready)
    fun _ _ _ horderly hstep => (horderly.step hsafe hstep).1

end Steps

end Pool

end Modularis.Foundation
