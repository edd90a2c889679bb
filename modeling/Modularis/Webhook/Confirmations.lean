import Modularis.Webhook.Publisher

namespace Modularis.Webhook.Confirmations

open Modularis.Foundation
open Modularis.Webhook.Publisher

/-- A publish that the broker was sent, with the call of `Publish` that made it. -/
structure Delivery where
  call : Nat
  message : Publishing
deriving DecidableEq, Repr

/-- `awaitConfirmation` reads `ack` alone. -/
structure Confirmation where
  delivery : Delivery
  ack : Bool
deriving DecidableEq, Repr

/-- Where the call that holds the mutex is. -/
inductive Phase where
  | publishing
  | awaiting
  | blocked
deriving DecidableEq, Repr

/-- The goroutine that holds `b.mu`, with how its attempts so far have ended. -/
structure Holder where
  call : Nat
  message : Publishing
  contextDone : Bool
  phase : Phase
  outcomes : List Outcome
deriving DecidableEq, Repr

/-- What a call of `Publish` returns; a nil error is `none`. -/
structure Return where
  call : Nat
  message : Publishing
  outcomes : List Outcome
  err : Option String
deriving DecidableEq, Repr

/-- `unconfirmed` and `confirmations` are queues, oldest first.  No operation reads
`acked`, what the broker has acked. -/
structure State where
  ready : Bool
  holder : Option Holder
  calls : Nat
  unconfirmed : List Delivery
  confirmations : List Confirmation
  closed : Bool
  acked : List Delivery
deriving DecidableEq, Repr

/-- Ready, and nothing was published. -/
def State.init : State where
  ready := true
  holder := none
  calls := 0
  unconfirmed := []
  confirmations := []
  closed := false
  acked := []

/-- The broker sends `confirm`; `close` closes the channel of confirmations, and
`setNotReady` is `Close` or the goroutine of `watchConnection`. -/
inductive Event where
  | call (message : Publishing) (contextDone : Bool)
  | refuse (error : String)
  | publish
  | confirm (ack : Bool)
  | receive
  | cancel
  | abandon (error : String)
  | close
  | setNotReady
deriving DecidableEq, Repr

/-- The `lastErr` that an attempt leaves. -/
def lastErr (routingKey : String) : Outcome → Option String
  | .refused error | .sent (.contextDone error) => some error
  | .sent .ack => none
  | .sent .nack => some ("rabbitmq negatively acknowledged publish for " ++ routingKey)
  | .sent .closed => some "rabbitmq publisher confirmation channel closed"

/-- The loop of `Publish` returns or makes another attempt. -/
def finish (publishAttempts : Int) (σ : State) (holder : Holder) (outcome : Outcome) :
    State × Option Return :=
  let outcomes := holder.outcomes ++ [outcome]
  match lastErr holder.message.routingKey outcome with
  | none =>
      ({ σ with holder := none },
        some
          { call := holder.call
            message := holder.message
            outcomes := outcomes
            err := none })
  | some error =>
      if (outcomes.length : Int) = publishAttempts then
        ({ σ with holder := none },
          some
            { call := holder.call
              message := holder.message
              outcomes := outcomes
              err := some error })
      else
        ({ σ with
            holder := some
              { holder with
                phase := .publishing
                outcomes := outcomes } }, none)

/-- What an event does, and what `Publish` returns by it.  While the lock is held
other calls wait; a closed channel still delivers what it holds. -/
def act (publishAttempts : Int) (σ : State) : Event → Option (State × Option Return)
  | .call message contextDone =>
      match σ.holder with
      | some _ => none
      | none =>
          let returned (err : Option String) : Return :=
            { call := σ.calls
              message := message
              outcomes := []
              err := err }
          let σ' := { σ with calls := σ.calls + 1 }
          if σ.ready = false then
            some (σ', some (returned (some "rabbitmq publisher is not ready")))
          else if publishAttempts < 1 then some (σ', some (returned none))
          else
            some ({ σ' with
              holder := some
                { call := σ.calls
                  message := message
                  contextDone := contextDone
                  phase := .publishing
                  outcomes := [] } }, none)
  | .refuse error =>
      match σ.holder with
      | some holder =>
          if holder.phase = .publishing then
            some (finish publishAttempts σ holder (.refused error))
          else none
      | none => none
  | .publish =>
      match σ.holder with
      | some holder =>
          if holder.phase = .publishing ∧ σ.closed = false then
            some ({ σ with
              holder := some { holder with phase := .awaiting }
              unconfirmed := σ.unconfirmed ++
                [{ call := holder.call, message := holder.message }] }, none)
          else none
      | none => none
  | .confirm ack =>
      match σ.unconfirmed with
      | delivery :: unconfirmed =>
          if σ.closed then none
          else
            some ({ σ with
              unconfirmed := unconfirmed
              confirmations := σ.confirmations ++ [{ delivery := delivery, ack := ack }]
              acked := if ack then σ.acked ++ [delivery] else σ.acked }, none)
      | [] => none
  | .receive =>
      match σ.holder with
      | some holder =>
          if holder.phase = .awaiting then
            match σ.confirmations with
            | confirmation :: confirmations =>
                some (finish publishAttempts { σ with confirmations := confirmations } holder
                  (.sent (if confirmation.ack then .ack else .nack)))
            | [] =>
                if σ.closed then
                  some ({ σ with holder := some { holder with phase := .blocked } }, none)
                else none
          else none
      | none => none
  | .cancel =>
      match σ.holder with
      | some holder =>
          some ({ σ with holder := some { holder with contextDone := true } }, none)
      | none => none
  | .abandon error =>
      match σ.holder with
      | some holder =>
          if holder.phase = .awaiting ∧ holder.contextDone = true then
            some (finish publishAttempts σ holder (.sent (.contextDone error)))
          else none
      | none => none
  | .close => some ({ σ with closed := true }, none)
  | .setNotReady =>
      match σ.holder with
      | some _ => none
      | none => some ({ σ with ready := false }, none)

/-- The state after an event. The broker confirms what it was sent in order and at any
later time; a wait takes the next confirmation, whichever publish that is about. -/
def step (publishAttempts : Int) (σ : State) (e : Event) : Option State :=
  (act publishAttempts σ e).map Prod.fst

/-- What `Publish` returns by an event. -/
def returned (publishAttempts : Int) (p : State × Event) : Option Return :=
  (act publishAttempts p.1 p.2).bind Prod.snd

abbrev Run (publishAttempts : Int) :=
  StepSystem.Run (step publishAttempts) State.init

/-- What was sent and is not consumed yet, oldest first, with its confirmation if that
has arrived. -/
def outstanding (σ : State) : List (Delivery × Option Bool) :=
  σ.confirmations.map (fun confirmation => (confirmation.delivery, some confirmation.ack)) ++
    σ.unconfirmed.map fun delivery => (delivery, none)

/-- The first confirmations that the call is going to take are nacks, as many of them
as it makes attempts, or all that are left over from earlier calls. -/
def Clear (publishAttempts : Int) (σ : State) : Prop :=
  σ.ready = true → 1 ≤ publishAttempts ∧
    (σ.closed = false →
      ∀ o ∈ (outstanding σ).take publishAttempts.toNat, o.2 = some false)

/-- A call of `Publish` that a step makes is clear. -/
def StepClear (publishAttempts : Int) (σ : State) (e : Event) : Prop :=
  ∀ message contextDone, e = .call message contextDone → Clear publishAttempts σ

/-- A call that returns nil made a publish that the broker has acked. -/
def Credited (publishAttempts : Int) (p : State × Event) : Prop :=
  ∀ r ∈ returned publishAttempts p, r.err = none →
    ∃ delivery ∈ p.1.acked, delivery.call = r.call ∧ delivery.message = r.message

section Steps

variable {publishAttempts : Int} {σ σ' : State} {e : Event}

/-- What an event can do. -/
inductive Acts (publishAttempts : Int) (σ : State) :
    Event → State × Option Return → Prop
  | notReady {message : Publishing} {contextDone : Bool} :
      σ.holder = none → σ.ready = false →
      Acts publishAttempts σ (.call message contextDone)
        ({ σ with calls := σ.calls + 1 },
          some ⟨σ.calls, message, [], some "rabbitmq publisher is not ready"⟩)
  | unattempted {message : Publishing} {contextDone : Bool} :
      σ.holder = none → σ.ready = true → publishAttempts < 1 →
      Acts publishAttempts σ (.call message contextDone)
        ({ σ with calls := σ.calls + 1 }, some ⟨σ.calls, message, [], none⟩)
  | started {message : Publishing} {contextDone : Bool} :
      σ.holder = none → σ.ready = true → 1 ≤ publishAttempts →
      Acts publishAttempts σ (.call message contextDone)
        ({ σ with
            calls := σ.calls + 1
            holder := some ⟨σ.calls, message, contextDone, .publishing, []⟩ }, none)
  | refused {holder : Holder} {error : String} :
      σ.holder = some holder → holder.phase = .publishing →
      Acts publishAttempts σ (.refuse error)
        (finish publishAttempts σ holder (.refused error))
  | published {holder : Holder} :
      σ.holder = some holder → holder.phase = .publishing → σ.closed = false →
      Acts publishAttempts σ .publish
        ({ σ with
            holder := some { holder with phase := .awaiting }
            unconfirmed := σ.unconfirmed ++ [⟨holder.call, holder.message⟩] }, none)
  | confirmed {delivery : Delivery} {unconfirmed : List Delivery} {ack : Bool} :
      σ.unconfirmed = delivery :: unconfirmed → σ.closed = false →
      Acts publishAttempts σ (.confirm ack)
        ({ σ with
            unconfirmed := unconfirmed
            confirmations := σ.confirmations ++ [⟨delivery, ack⟩]
            acked := if ack then σ.acked ++ [delivery] else σ.acked }, none)
  | received {holder : Holder} {confirmation : Confirmation}
      {confirmations : List Confirmation} :
      σ.holder = some holder → holder.phase = .awaiting →
      σ.confirmations = confirmation :: confirmations →
      Acts publishAttempts σ .receive
        (finish publishAttempts { σ with confirmations := confirmations } holder
          (.sent (if confirmation.ack then .ack else .nack)))
  | blocked {holder : Holder} :
      σ.holder = some holder → holder.phase = .awaiting → σ.confirmations = [] →
      Acts publishAttempts σ .receive
        ({ σ with holder := some { holder with phase := .blocked } }, none)
  | cancelled {holder : Holder} :
      σ.holder = some holder →
      Acts publishAttempts σ .cancel
        ({ σ with holder := some { holder with contextDone := true } }, none)
  | abandoned {holder : Holder} {error : String} :
      σ.holder = some holder → holder.phase = .awaiting →
      Acts publishAttempts σ (.abandon error)
        (finish publishAttempts σ holder (.sent (.contextDone error)))
  | closed : Acts publishAttempts σ .close ({ σ with closed := true }, none)
  | setNotReady : σ.holder = none →
      Acts publishAttempts σ .setNotReady ({ σ with ready := false }, none)

theorem acts_of_act {result : State × Option Return}
    (h : act publishAttempts σ e = some result) : Acts publishAttempts σ e result := by
  cases e with
  | call message contextDone =>
      simp only [act] at h
      split at h
      · cases h
      · rename_i hholder
        split at h
        · cases h
          exact .notReady hholder ‹_›
        · rename_i hready
          rw [Bool.not_eq_false] at hready
          split at h <;> cases h
          · exact .unattempted hholder hready ‹_›
          · exact .started hholder hready (Int.not_lt.mp ‹_›)
  | refuse error =>
      simp only [act] at h
      split at h
      · split at h <;> cases h
        exact .refused ‹_› ‹_›
      · cases h
  | publish =>
      simp only [act] at h
      split at h
      · split at h <;> cases h
        rename_i hphase
        exact .published ‹_› hphase.1 hphase.2
      · cases h
  | confirm ack =>
      simp only [act] at h
      split at h
      · split at h <;> cases h
        exact .confirmed ‹_› (Bool.not_eq_true _ ▸ ‹_›)
      · cases h
  | receive =>
      simp only [act] at h
      split at h
      · split at h
        · split at h
          · cases h
            exact .received ‹_› ‹_› ‹_›
          · split at h <;> cases h
            exact .blocked ‹_› ‹_› ‹_›
        · cases h
      · cases h
  | cancel =>
      simp only [act] at h
      split at h <;> cases h
      exact .cancelled ‹_›
  | abandon error =>
      simp only [act] at h
      split at h
      · split at h <;> cases h
        rename_i hphase
        exact .abandoned ‹_› hphase.1
      · cases h
  | close =>
      cases h
      exact .closed
  | setNotReady =>
      simp only [act] at h
      split at h <;> cases h
      exact .setNotReady ‹_›

theorem acts_of_step (h : step publishAttempts σ e = some σ') :
    ∃ r, Acts publishAttempts σ e (σ', r) := by
  obtain ⟨⟨_, r⟩, hact, rfl⟩ := Option.map_eq_some_iff.mp h
  exact ⟨r, acts_of_act hact⟩

theorem acts_of_returned {r : Return} (h : r ∈ returned publishAttempts (σ, e)) :
    ∃ σ', Acts publishAttempts σ e (σ', some r) := by
  obtain ⟨⟨σ', _⟩, hact, rfl⟩ := Option.bind_eq_some_iff.mp h
  exact ⟨σ', acts_of_act hact⟩

theorem finish_cases (publishAttempts : Int) (σ : State) (holder : Holder)
    (outcome : Outcome) :
    (∃ error, lastErr holder.message.routingKey outcome = some error ∧
      (holder.outcomes.length : Int) + 1 ≠ publishAttempts ∧
      finish publishAttempts σ holder outcome =
        ({ σ with
            holder := some
              { holder with
                phase := .publishing
                outcomes := holder.outcomes ++ [outcome] } }, none)) ∨
    (lastErr holder.message.routingKey outcome = none ∨
      (holder.outcomes.length : Int) + 1 = publishAttempts) ∧
      finish publishAttempts σ holder outcome =
        ({ σ with holder := none },
          some ⟨holder.call, holder.message, holder.outcomes ++ [outcome],
            lastErr holder.message.routingKey outcome⟩) := by
  have hlength : ((holder.outcomes ++ [outcome]).length : Int) =
      holder.outcomes.length + 1 := by simp
  unfold finish
  cases herror : lastErr holder.message.routingKey outcome with
  | none => exact .inr ⟨.inl rfl, rfl⟩
  | some error =>
      simp only [hlength]
      by_cases hlast : (holder.outcomes.length : Int) + 1 = publishAttempts
      · rw [if_pos hlast]
        exact .inr ⟨.inr hlast, rfl⟩
      · rw [if_neg hlast]
        exact .inl ⟨error, rfl, hlast, rfl⟩

end Steps

section Invariants

variable {publishAttempts : Int} {σ σ' : State} {e : Event}

/-- What holds in every run. -/
structure Sound (publishAttempts : Int) (σ : State) : Prop where
  issued : ∀ o ∈ outstanding σ, o.1.call < σ.calls
  acked : ∀ delivery ∈ σ.acked, delivery.call < σ.calls
  told : ∀ confirmation ∈ σ.confirmations, confirmation.ack = true →
    confirmation.delivery ∈ σ.acked
  current : ∀ holder ∈ σ.holder, holder.call < σ.calls
  remaining : ∀ holder ∈ σ.holder, (holder.outcomes.length : Int) < publishAttempts

/-- What is left over from others, then the own publishes: a goroutine that has made
`attempts` attempts can only come to take nacks of what is left over. -/
def Spared (publishAttempts : Int) (own : Delivery) (attempts : Int)
    (outstanding : List (Delivery × Option Bool)) : Prop :=
  ∃ old mine, outstanding = old ++ mine ∧ (∀ o ∈ mine, o.1 = own) ∧
    ∀ (k : Nat) o, old[k]? = some o → (k : Int) + attempts < publishAttempts →
      o.2 = some false

/-- What the goroutine in `Publish` may still take: as many left over nacks as it
makes attempts, or nothing that was left over but nacks. -/
def Shielded (publishAttempts : Int) (σ : State) : Prop :=
  ∀ holder ∈ σ.holder,
    σ.closed = true ∧ holder.phase = .publishing ∨
    Spared publishAttempts ⟨holder.call, holder.message⟩ holder.outcomes.length
      (outstanding σ)

theorem outstanding_of_received {confirmation : Confirmation}
    {confirmations : List Confirmation}
    (h : σ.confirmations = confirmation :: confirmations) :
    outstanding σ = (confirmation.delivery, some confirmation.ack) ::
      outstanding { σ with confirmations := confirmations } := by
  simp [outstanding, h]

theorem outstanding_of_confirmed {delivery : Delivery} {unconfirmed : List Delivery}
    (ack : Bool) (acked : List Delivery)
    (h : σ.unconfirmed = delivery :: unconfirmed) :
    (outstanding σ)[σ.confirmations.length]? = some (delivery, none) ∧
      outstanding
        { σ with
          unconfirmed := unconfirmed
          confirmations := σ.confirmations ++ [⟨delivery, ack⟩]
          acked := acked } =
        (outstanding σ).set σ.confirmations.length (delivery, some ack) := by
  constructor
  · simp [outstanding, h]
  · simp [outstanding, h]

theorem sound_finish {outcome : Outcome} {holder : Holder}
    {result : State × Option Return} (h : Sound publishAttempts σ)
    (hcurrent : holder.call < σ.calls)
    (hremaining : (holder.outcomes.length : Int) < publishAttempts)
    (hresult : finish publishAttempts σ holder outcome = result) :
    Sound publishAttempts result.1 := by
  rcases finish_cases publishAttempts σ holder outcome with
    ⟨error, _, hmore, hfinish⟩ | ⟨_, hfinish⟩
  · obtain rfl := hfinish.symm.trans hresult
    refine ⟨h.issued, h.acked, h.told, ?_, ?_⟩
    · rintro _ ⟨⟩
      exact hcurrent
    · rintro _ ⟨⟩
      rw [List.length_append, List.length_singleton]
      omega
  · obtain rfl := hfinish.symm.trans hresult
    exact ⟨h.issued, h.acked, h.told, by simp, by simp⟩

theorem Sound.consume (h : Sound publishAttempts σ) {confirmation : Confirmation}
    {confirmations : List Confirmation}
    (hconfirmations : σ.confirmations = confirmation :: confirmations) :
    Sound publishAttempts { σ with confirmations := confirmations } := by
  refine ⟨fun o ho => h.issued o ?_, h.acked, fun c hc => h.told c ?_, h.current,
    h.remaining⟩
  · rw [outstanding_of_received hconfirmations]
    exact List.mem_cons_of_mem _ ho
  · rw [hconfirmations]
    exact List.mem_cons_of_mem _ hc

theorem sound_step (h : Sound publishAttempts σ)
    (hstep : step publishAttempts σ e = some σ') : Sound publishAttempts σ' := by
  obtain ⟨r, hacts⟩ := acts_of_step hstep
  generalize hresult : (σ', r) = result at hacts
  obtain rfl : result.1 = σ' := hresult ▸ rfl
  clear hresult hstep
  have hlater : ∀ {call : Nat}, call < σ.calls → call < σ.calls + 1 :=
    fun hcall => Nat.lt_succ_of_lt hcall
  cases hacts with
  | notReady hholder | unattempted hholder =>
      refine ⟨fun o ho => hlater (h.issued o ho), fun d hd => hlater (h.acked d hd),
        h.told, ?_, ?_⟩ <;>
      · rintro _ hsome
        rw [hholder] at hsome
        cases hsome
  | started _ _ hattempts =>
      refine ⟨fun o ho => hlater (h.issued o ho), fun d hd => hlater (h.acked d hd),
        h.told, ?_, ?_⟩
      · rintro _ ⟨⟩
        exact Nat.lt_succ_self _
      · rintro _ ⟨⟩
        exact Int.lt_of_lt_of_le Int.zero_lt_one hattempts
  | refused hholder => exact sound_finish h (h.current _ hholder) (h.remaining _ hholder) rfl
  | abandoned hholder => exact sound_finish h (h.current _ hholder) (h.remaining _ hholder) rfl
  | received hholder _ hconfirmations =>
      exact sound_finish (h.consume hconfirmations) (h.current _ hholder)
        (h.remaining _ hholder) rfl
  | @published holder hholder =>
      refine ⟨fun o ho => ?_, h.acked, h.told, ?_, ?_⟩
      · have hmem : o ∈ outstanding σ ∨ o = (⟨holder.call, holder.message⟩, none) := by
          simpa [outstanding, or_assoc] using ho
        rcases hmem with hold | rfl
        · exact h.issued o hold
        · exact h.current holder hholder
      · rintro _ ⟨⟩
        exact h.current holder hholder
      · rintro _ ⟨⟩
        exact h.remaining holder hholder
  | @confirmed delivery unconfirmed ack hunconfirmed =>
      have hdelivery : delivery.call < σ.calls :=
        h.issued (delivery, none) (by simp [outstanding, hunconfirmed])
      refine ⟨fun o ho => ?_, fun d hd => ?_, fun c hc hack => ?_, h.current, h.remaining⟩
      · rw [(outstanding_of_confirmed ack _ hunconfirmed).2] at ho
        rcases List.mem_or_eq_of_mem_set ho with hold | rfl
        · exact h.issued o hold
        · exact hdelivery
      · change d ∈ (if ack = true then σ.acked ++ [delivery] else σ.acked) at hd
        split at hd
        · rcases List.mem_append.mp hd with hold | hnew
          · exact h.acked d hold
          · rw [List.mem_singleton.mp hnew]
            exact hdelivery
        · exact h.acked d hd
      · change c.delivery ∈ (if ack = true then σ.acked ++ [delivery] else σ.acked)
        rcases List.mem_append.mp hc with hold | hnew
        · have htold := h.told c hold hack
          split
          · exact List.mem_append_left _ htold
          · exact htold
        · obtain rfl := List.mem_singleton.mp hnew
          rw [if_pos hack]
          exact List.mem_append_right _ List.mem_cons_self
  | @blocked holder hholder | @cancelled holder hholder =>
      refine ⟨h.issued, h.acked, h.told, ?_, ?_⟩
      · rintro _ ⟨⟩
        exact h.current holder hholder
      · rintro _ ⟨⟩
        exact h.remaining holder hholder
  | closed => exact ⟨h.issued, h.acked, h.told, h.current, h.remaining⟩
  | setNotReady => exact ⟨h.issued, h.acked, h.told, h.current, h.remaining⟩

theorem sound_of_reachable
    (h : StepSystem.Reachable (step publishAttempts) State.init σ) :
    Sound publishAttempts σ :=
  h.invariant (I := Sound publishAttempts)
    ⟨by simp [outstanding, State.init], by simp [State.init], by simp [State.init],
      by simp [State.init], by simp [State.init]⟩
    fun _ _ _ hs hstep => sound_step hs hstep

theorem clear_getElem? {old : List (Delivery × Option Bool)} {n : Nat}
    (h : ∀ o ∈ old.take n, o.2 = some false) {k : Nat} {o : Delivery × Option Bool}
    (ho : old[k]? = some o) (hk : k < n) : o.2 = some false :=
  h o (List.mem_of_getElem? (by rwa [List.getElem?_take_of_lt hk] : (old.take n)[k]? = some o))

theorem shielded_of_none (h : σ.holder = none) : Shielded publishAttempts σ := by
  intro holder hholder
  rw [h] at hholder
  cases hholder

section Spared

variable {own delivery : Delivery} {attempts attempts' : Int}
  {left : List (Delivery × Option Bool)}

theorem Spared.mono (h : Spared publishAttempts own attempts left)
    (hle : attempts ≤ attempts') : Spared publishAttempts own attempts' left := by
  obtain ⟨old, mine, heq, hmine, hold⟩ := h
  exact ⟨old, mine, heq, hmine, fun k o ho hk => hold k o ho (by omega)⟩

theorem spared_of_clear
    (h : ∀ o ∈ left.take publishAttempts.toNat, o.2 = some false) :
    Spared publishAttempts own 0 left := by
  refine ⟨left, [], (List.append_nil left).symm, by simp, fun k o ho hk => ?_⟩
  exact clear_getElem? h ho (by omega)

theorem Spared.received {o : Delivery × Option Bool}
    (h : Spared publishAttempts own attempts (o :: left)) :
    Spared publishAttempts own (attempts + 1) left := by
  obtain ⟨old, mine, heq, hmine, hold⟩ := h
  cases old with
  | nil =>
      cases mine with
      | nil => cases heq
      | cons _ mine =>
          obtain ⟨_, rfl⟩ := List.cons.inj heq
          exact ⟨[], left, rfl, fun o ho => hmine o (List.mem_cons_of_mem _ ho), by simp⟩
  | cons _ old =>
      obtain ⟨_, rfl⟩ := List.cons.inj heq
      refine ⟨old, mine, rfl, hmine, fun k o ho hk => hold (k + 1) o ho ?_⟩
      omega

theorem Spared.published (h : Spared publishAttempts own attempts left) :
    Spared publishAttempts own attempts (left ++ [(own, none)]) := by
  obtain ⟨old, mine, rfl, hmine, hold⟩ := h
  refine ⟨old, mine ++ [(own, none)], List.append_assoc .., fun o ho => ?_, hold⟩
  rcases List.mem_append.mp ho with hmem | hnew
  · exact hmine o hmem
  · rw [List.mem_singleton.mp hnew]

theorem Spared.confirmed {n : Nat} (h : Spared publishAttempts own attempts left)
    (hfirst : left[n]? = some (delivery, none)) (ack : Bool) :
    Spared publishAttempts own attempts (left.set n (delivery, some ack)) := by
  obtain ⟨old, mine, rfl, hmine, hold⟩ := h
  by_cases hlt : n < old.length
  · refine ⟨old.set n (delivery, some ack), mine, ?_, hmine, fun k o ho hk => ?_⟩
    · rw [List.set_append, if_pos hlt]
    · rw [List.getElem?_append_left hlt] at hfirst
      by_cases hsame : n = k
      · rw [hsame] at hfirst
        cases hold k _ hfirst hk
      · rw [List.getElem?_set_ne hsame] at ho
        exact hold k o ho hk
  · rw [List.getElem?_append_right (Nat.not_lt.mp hlt)] at hfirst
    refine ⟨old, mine.set (n - old.length) (delivery, some ack), ?_, fun o ho => ?_, hold⟩
    · rw [List.set_append, if_neg hlt]
    · rcases List.mem_or_eq_of_mem_set ho with hmem | rfl
      · exact hmine o hmem
      · exact hmine (delivery, none) (List.mem_of_getElem? hfirst)

end Spared

theorem shielded_finish {outcome : Outcome} {holder : Holder}
    (h : σ.closed = true ∨ Spared publishAttempts ⟨holder.call, holder.message⟩
      (holder.outcomes.length + 1) (outstanding σ)) :
    Shielded publishAttempts (finish publishAttempts σ holder outcome).1 := by
  rcases finish_cases publishAttempts σ holder outcome with
    ⟨error, _, _, hfinish⟩ | ⟨_, hfinish⟩
  · rw [hfinish]
    rintro _ ⟨⟩
    refine h.imp (fun hclosed => ⟨hclosed, rfl⟩) fun hspared => ?_
    exact hspared.mono (by simp)
  · rw [hfinish]
    exact shielded_of_none rfl

theorem Shielded.awaiting {holder : Holder} (h : Shielded publishAttempts σ)
    (hholder : σ.holder = some holder) (hphase : holder.phase = .awaiting) :
    Spared publishAttempts ⟨holder.call, holder.message⟩ holder.outcomes.length
      (outstanding σ) := by
  rcases h holder hholder with ⟨_, hpublishing⟩ | hspared
  · rw [hphase] at hpublishing
    cases hpublishing
  · exact hspared

theorem shielded_step (h : Shielded publishAttempts σ)
    (hclear : StepClear publishAttempts σ e)
    (hstep : step publishAttempts σ e = some σ') : Shielded publishAttempts σ' := by
  obtain ⟨r, hacts⟩ := acts_of_step hstep
  generalize hresult : (σ', r) = result at hacts
  obtain rfl : result.1 = σ' := hresult ▸ rfl
  clear hresult hstep
  cases hacts with
  | notReady hholder | unattempted hholder => exact shielded_of_none hholder
  | setNotReady hholder => exact shielded_of_none hholder
  | started _ hready hattempts =>
      obtain ⟨_, hnacks⟩ := hclear _ _ rfl hready
      rintro _ ⟨⟩
      cases hclosed : σ.closed with
      | true => exact .inl ⟨rfl, rfl⟩
      | false => exact .inr (spared_of_clear (hnacks hclosed))
  | @refused holder error hholder | @abandoned holder error hholder =>
      refine shielded_finish ((h holder hholder).imp And.left fun hspared => ?_)
      exact hspared.mono (by omega)
  | @received holder confirmation confirmations hholder hphase hconfirmations =>
      have hspared := h.awaiting hholder hphase
      rw [outstanding_of_received hconfirmations] at hspared
      exact shielded_finish (.inr hspared.received)
  | @published holder hholder _ hopen =>
      rintro _ ⟨⟩
      rcases h holder hholder with ⟨hclosed, _⟩ | hspared
      · rw [hopen] at hclosed
        cases hclosed
      · refine .inr ?_
        have hsent := hspared.published
        simpa [outstanding] using hsent
  | @confirmed delivery unconfirmed ack hunconfirmed =>
      intro holder hholder
      refine (h holder hholder).imp id fun hspared => ?_
      obtain ⟨hfirst, hset⟩ := outstanding_of_confirmed ack
        (if ack = true then σ.acked ++ [delivery] else σ.acked) hunconfirmed
      rw [hset]
      exact hspared.confirmed hfirst ack
  | @blocked holder hholder hphase =>
      have hspared := h.awaiting hholder hphase
      rintro _ ⟨⟩
      exact .inr hspared
  | @cancelled holder hholder =>
      rintro _ ⟨⟩
      exact h holder hholder
  | closed =>
      intro holder hholder
      exact (h holder hholder).imp (And.imp_left fun _ => rfl) id

/-- What a shielded goroutine takes for an ack is the ack of a publish of its own. -/
theorem credited_of_shielded (hsound : Sound publishAttempts σ)
    (h : Shielded publishAttempts σ) (hclear : StepClear publishAttempts σ e) :
    Credited publishAttempts (σ, e) := by
  intro r hr hnil
  obtain ⟨σ', hacts⟩ := acts_of_returned hr
  have hreturned : ∀ {τ : State} {holder : Holder} {outcome : Outcome},
      (σ', some r) = finish publishAttempts τ holder outcome →
      lastErr holder.message.routingKey outcome = none ∧ r.call = holder.call ∧
        r.message = holder.message := by
    intro τ holder outcome hfinish
    rcases finish_cases publishAttempts τ holder outcome with
      ⟨_, _, _, hgoes⟩ | ⟨_, hends⟩
    · cases hfinish.trans hgoes
    · cases hfinish.trans hends
      exact ⟨hnil, rfl, rfl⟩
  generalize hresult : (σ', some r) = result at hacts
  cases hacts with
  | notReady =>
      cases hresult
      cases hnil
  | unattempted _ hready hattempts =>
      obtain ⟨hpositive, _⟩ := hclear _ _ rfl hready
      omega
  | refused | abandoned =>
      obtain ⟨herror, _⟩ := hreturned hresult
      cases herror
  | @received holder confirmation confirmations hholder hphase hconfirmations =>
      obtain ⟨herror, hcall, hmessage⟩ := hreturned hresult
      have hack : confirmation.ack = true := by
        cases hack : confirmation.ack with
        | true => rfl
        | false =>
            rw [hack] at herror
            cases herror
      have htold := hsound.told confirmation (by simp [hconfirmations]) hack
      refine ⟨confirmation.delivery, htold, ?_⟩
      obtain ⟨old, own, heq, hown, hold⟩ := h.awaiting hholder hphase
      rw [outstanding_of_received hconfirmations] at heq
      cases old with
      | nil =>
          have hmine : confirmation.delivery = ⟨holder.call, holder.message⟩ :=
            hown (confirmation.delivery, some confirmation.ack)
              (List.nil_append own ▸ heq ▸ List.mem_cons_self)
          rw [hmine]
          exact ⟨hcall.symm, hmessage.symm⟩
      | cons o old =>
          have hnack := hold 0 o rfl (by simpa using hsound.remaining holder hholder)
          rw [← (List.cons.inj heq).1, hack] at hnack
          cases hnack
  | _ => cases hresult

theorem credited_of_run {trace : List (State × Event)}
    (hrun : StepSystem.Run (step publishAttempts) σ trace σ')
    (hsound : Sound publishAttempts σ) (hshielded : Shielded publishAttempts σ)
    (hclear : ∀ p ∈ trace, StepClear publishAttempts p.1 p.2) :
    ∀ p ∈ trace, Credited publishAttempts p := by
  have hkept := hrun.always
    (I := fun σ => Sound publishAttempts σ ∧ Shielded publishAttempts σ)
    (StepClear publishAttempts) ⟨hsound, hshielded⟩
    (fun σ e σ' h hclear hstep =>
      ⟨sound_step h.1 hstep, shielded_step h.2 hclear hstep⟩) hclear
  intro p hp
  obtain ⟨hsound, hshielded⟩ := hkept.1 p hp
  exact credited_of_shielded hsound hshielded (hclear p hp)

end Invariants

section Publish

variable {publishAttempts : Int} {σ σ' : State} {e : Event}

/-- The attempt failed, and `Publish` goes on. -/
def Failed (outcome : Outcome) : Prop :=
  outcome ≠ .sent .ack ∧ outcome ≠ .sent .closed

theorem attemptOnce_eq (message : Publishing) {outcome : Outcome}
    (h : outcome ≠ .sent .closed) (bus : Bus) :
    (attemptOnce message outcome).run bus =
      .ok (lastErr message.routingKey outcome) (bus.hand message 1) := by
  match outcome with
  | .refused _ | .sent .ack | .sent .nack | .sent (.contextDone _) => rfl
  | .sent .closed => exact absurd rfl h

theorem lastErr_of_failed {outcome : Outcome} (h : Failed outcome) (routingKey : String) :
    ∃ error, lastErr routingKey outcome = some error := by
  match outcome with
  | .refused _ | .sent .nack | .sent (.contextDone _) => exact ⟨_, rfl⟩
  | .sent .ack => exact absurd rfl h.1
  | .sent .closed => exact absurd rfl h.2

theorem run_publishFrom {message : Publishing} {outcomes : Nat → Outcome}
    {failed : List Outcome} {last : Outcome} (hfailed : ∀ o ∈ failed, Failed o)
    (hlast : last ≠ .sent .closed) {attempt remaining : Nat}
    (houtcomes : ∀ k o, (failed ++ [last])[k]? = some o → outcomes (attempt + k) = o)
    (hremaining : failed.length < remaining)
    (hend : lastErr message.routingKey last = none ∨ failed.length + 1 = remaining)
    (err : Option String) (bus : Bus) :
    (publishFrom message outcomes attempt err remaining).run bus =
      .ok (lastErr message.routingKey last) (bus.hand message (failed.length + 1)) := by
  obtain ⟨remaining, rfl⟩ := Nat.exists_eq_succ_of_ne_zero (Nat.ne_zero_of_lt hremaining)
  induction failed generalizing attempt remaining err bus with
  | nil =>
      have hfirst : outcomes attempt = last := houtcomes 0 last rfl
      rw [publishFrom, EStateM.run_bind, hfirst, attemptOnce_eq message hlast]
      cases herror : lastErr message.routingKey last with
      | none => rfl
      | some error =>
          have hzero : remaining = 0 := by
            rcases hend with hnil | hend
            · rw [herror] at hnil
              cases hnil
            · simpa using hend.symm
          rw [hzero]
          rfl
  | cons o failed ih =>
      have hfirst : outcomes attempt = o := houtcomes 0 o rfl
      have ho := hfailed o List.mem_cons_self
      obtain ⟨error, herror⟩ := lastErr_of_failed ho message.routingKey
      rw [List.length_cons] at hremaining
      obtain ⟨remaining, rfl⟩ : ∃ n, remaining = n + 1 := ⟨remaining - 1, by omega⟩
      rw [publishFrom, EStateM.run_bind, hfirst, attemptOnce_eq message ho.2, herror]
      change (publishFrom message outcomes (attempt + 1) (some error) (remaining + 1)).run
        (bus.hand message 1) = _
      rw [ih (fun o ho => hfailed o (List.mem_cons_of_mem _ ho)) ?_ (some error) _
        remaining (by omega) ?_, hand_hand]
      · rfl
      · intro k o hk
        rw [Nat.add_right_comm]
        exact houtcomes (k + 1) o hk
      · exact hend.imp_right fun hend => by rw [List.length_cons] at hend; omega

/-- The attempts that a goroutine in `Publish` has behind it have failed. -/
def Behind (σ : State) : Prop :=
  ∀ holder ∈ σ.holder, ∀ o ∈ holder.outcomes, Failed o

theorem behind_finish {holder : Holder} {outcome : Outcome}
    (h : ∀ o ∈ holder.outcomes, Failed o) (hclosed : outcome ≠ .sent .closed) :
    Behind (finish publishAttempts σ holder outcome).1 := by
  rcases finish_cases publishAttempts σ holder outcome with
    ⟨error, herror, _, hfinish⟩ | ⟨_, hfinish⟩
  · rw [hfinish]
    rintro _ ⟨⟩ o ho
    rcases List.mem_append.mp ho with hold | hnew
    · exact h o hold
    · rw [List.mem_singleton.mp hnew]
      refine ⟨?_, hclosed⟩
      rintro rfl
      cases herror
  · rw [hfinish]
    rintro _ ⟨⟩

theorem behind_step (h : Behind σ) (hstep : step publishAttempts σ e = some σ') :
    Behind σ' := by
  obtain ⟨r, hacts⟩ := acts_of_step hstep
  generalize hresult : (σ', r) = result at hacts
  obtain rfl : result.1 = σ' := hresult ▸ rfl
  clear hresult hstep
  cases hacts with
  | started =>
      rintro _ ⟨⟩ o ho
      cases ho
  | refused hholder | abandoned hholder => exact behind_finish (h _ hholder) (by rintro ⟨⟩)
  | @received holder confirmation _ hholder =>
      refine behind_finish (h _ hholder) ?_
      cases confirmation.ack <;> rintro ⟨⟩
  | @published holder hholder | @blocked holder hholder | @cancelled holder hholder =>
      rintro _ ⟨⟩
      exact h holder hholder
  | _ => exact h

/-- What `Publish` returns for a list of outcomes. -/
def Publishes (publishAttempts : Int) (r : Return) : Prop :=
  ∃ ready bus, (publish publishAttempts r.message fun attempt =>
      r.outcomes.getD (attempt - 1) (.sent .ack)).run
        { locked := false, ready := ready, handed := [] } = .ok r.err bus ∧
    bus.handed = List.replicate r.outcomes.length r.message

theorem publishes_of_finish {holder : Holder} {outcome : Outcome} {r : Return}
    (hbehind : ∀ o ∈ holder.outcomes, Failed o) (hclosed : outcome ≠ .sent .closed)
    (hremaining : (holder.outcomes.length : Int) < publishAttempts)
    (hfinish : (σ', some r) = finish publishAttempts σ holder outcome) :
    Publishes publishAttempts r := by
  rcases finish_cases publishAttempts σ holder outcome with
    ⟨_, _, _, hgoes⟩ | ⟨hend, hends⟩
  · cases hfinish.trans hgoes
  · cases hfinish.trans hends
    refine ⟨true, ⟨false, true, List.replicate (holder.outcomes.length + 1)
      holder.message⟩, ?_, by simp⟩
    rw [publish_of_ready rfl rfl, run_publishFrom hbehind hclosed ?_ (by omega)
      (hend.imp_right fun hlast => by omega)]
    · rfl
    · intro k o ho
      rw [Nat.add_sub_cancel_left, List.getD, ho]
      rfl

theorem publishes_of_returned {trace : List (State × Event)}
    (hrun : Run publishAttempts trace σ) {p : State × Event} (hp : p ∈ trace)
    {r : Return} (hr : r ∈ returned publishAttempts p) : Publishes publishAttempts r := by
  have hkept := hrun.always
    (I := fun σ => Sound publishAttempts σ ∧ Behind σ) (fun _ _ => True)
    ⟨sound_of_reachable (.refl _), by rintro _ ⟨⟩⟩
    (fun _ _ _ h _ hstep => ⟨sound_step h.1 hstep, behind_step h.2 hstep⟩)
    fun _ _ => trivial
  obtain ⟨hsound, hbehind⟩ := hkept.1 p hp
  obtain ⟨σ', hacts⟩ := acts_of_returned (σ := p.1) (e := p.2) hr
  generalize p.2 = e at hacts
  generalize hresult : (σ', some r) = result at hacts
  cases hacts with
  | notReady =>
      cases hresult
      exact ⟨false, _, publish_of_not_ready rfl rfl, rfl⟩
  | unattempted _ _ hattempts =>
      cases hresult
      have hzero : publishAttempts.toNat = 0 := by omega
      refine ⟨true, ⟨false, true, []⟩, ?_, rfl⟩
      rw [publish_of_ready rfl rfl, hzero]
      rfl
  | refused hholder | abandoned hholder =>
      exact publishes_of_finish (hbehind _ hholder) (by rintro ⟨⟩)
        (hsound.remaining _ hholder) hresult
  | @received holder confirmation _ hholder =>
      refine publishes_of_finish (hbehind _ hholder) ?_ (hsound.remaining _ hholder) hresult
      cases confirmation.ack <;> rintro ⟨⟩
  | _ => cases hresult

end Publish

section LeftOver

variable {publishAttempts : Int} {σ : State} {holder : Holder}

/-- The state in which the goroutine waits for a confirmation. -/
def sent (σ : State) (holder : Holder) : State :=
  { σ with
    holder := some { holder with phase := .awaiting }
    unconfirmed := σ.unconfirmed ++ [⟨holder.call, holder.message⟩] }

theorem step_publish (publishAttempts : Int) (hholder : σ.holder = some holder)
    (hphase : holder.phase = .publishing) (hopen : σ.closed = false) :
    step publishAttempts σ .publish = some (sent σ holder) := by
  simp [step, act, sent, hholder, hphase, hopen]

theorem step_confirm (publishAttempts : Int) {delivery : Delivery}
    {unconfirmed : List Delivery}
    (hunconfirmed : σ.unconfirmed = delivery :: unconfirmed) (hopen : σ.closed = false) :
    step publishAttempts σ (.confirm true) =
      some { σ with
        unconfirmed := unconfirmed
        confirmations := σ.confirmations ++ [⟨delivery, true⟩]
        acked := σ.acked ++ [delivery] } := by
  simp [step, act, hunconfirmed, hopen]

theorem act_receive {confirmation : Confirmation} {confirmations : List Confirmation}
    (hholder : σ.holder = some holder) (hphase : holder.phase = .awaiting)
    (hconfirmations : σ.confirmations = confirmation :: confirmations) :
    act publishAttempts σ .receive =
      some (finish publishAttempts { σ with confirmations := confirmations } holder
        (.sent (if confirmation.ack then .ack else .nack))) := by
  simp [act, hholder, hphase, hconfirmations]

theorem miscredited_receive (publishAttempts : Int) {confirmation : Confirmation}
    {confirmations : List Confirmation} (hholder : σ.holder = some holder)
    (hphase : holder.phase = .awaiting)
    (hconfirmations : σ.confirmations = confirmation :: confirmations)
    (hack : confirmation.ack = true)
    (hothers : ∀ delivery ∈ σ.acked, delivery.call ≠ holder.call) :
    (∃ σ', step publishAttempts σ .receive = some σ') ∧
      ¬ Credited publishAttempts (σ, .receive) := by
  have hact : act publishAttempts σ .receive = _ :=
    act_receive hholder hphase hconfirmations
  rw [hack, if_pos rfl] at hact
  constructor
  · exact ⟨_, by rw [step, hact]; rfl⟩
  · intro hcredited
    obtain ⟨delivery, hdelivery, hcall, _⟩ := hcredited
      ⟨holder.call, holder.message, holder.outcomes ++ [.sent .ack], none⟩
      (by rw [returned, hact]; rfl) rfl
    exact hothers delivery hdelivery hcall

theorem confirmations_of_outstanding {o : Delivery × Option Bool}
    {rest : List (Delivery × Option Bool)} {ack : Bool}
    (h : outstanding σ = o :: rest) (hack : o.2 = some ack) :
    ∃ confirmations, σ.confirmations = ⟨o.1, ack⟩ :: confirmations := by
  cases hconfirmations : σ.confirmations with
  | nil =>
      rw [outstanding, hconfirmations] at h
      cases hunconfirmed : σ.unconfirmed with
      | nil =>
          rw [hunconfirmed] at h
          cases h
      | cons delivery unconfirmed =>
          rw [hunconfirmed] at h
          obtain rfl := (List.cons.inj h).1
          cases hack
  | cons confirmation confirmations =>
      rw [outstanding_of_received hconfirmations] at h
      obtain rfl := (List.cons.inj h).1
      cases hack
      exact ⟨confirmations, rfl⟩

theorem unconfirmed_of_outstanding {o : Delivery × Option Bool}
    {rest : List (Delivery × Option Bool)} (h : outstanding σ = o :: rest)
    (hnone : o.2 = none) :
    σ.confirmations = [] ∧ ∃ unconfirmed, σ.unconfirmed = o.1 :: unconfirmed := by
  cases hconfirmations : σ.confirmations with
  | nil =>
      rw [outstanding, hconfirmations] at h
      cases hunconfirmed : σ.unconfirmed with
      | nil =>
          rw [hunconfirmed] at h
          cases h
      | cons delivery unconfirmed =>
          rw [hunconfirmed] at h
          obtain rfl := (List.cons.inj h).1
          exact ⟨rfl, unconfirmed, rfl⟩
  | cons confirmation confirmations =>
      rw [outstanding_of_received hconfirmations] at h
      obtain rfl := (List.cons.inj h).1
      cases hnone

/-- `later` starts no call of `Publish`. -/
def SameCall (later : List (State × Event)) : Prop :=
  ∀ p ∈ later, ∀ message contextDone, p.2 ≠ .call message contextDone

/-- The run goes on, in the same call, to a return that is not credited. -/
def Miscredits (publishAttempts : Int) (σ : State) : Prop :=
  ∃ later σ', StepSystem.Run (step publishAttempts) σ later σ' ∧ SameCall later ∧
    ∃ p ∈ later, ¬ Credited publishAttempts p

theorem Miscredits.cons {σ' : State} {e : Event} (h : Miscredits publishAttempts σ')
    (hstep : step publishAttempts σ e = some σ')
    (hsame : ∀ message contextDone, e ≠ .call message contextDone) :
    Miscredits publishAttempts σ := by
  obtain ⟨later, τ, hrun, hlater, p, hp, hwrong⟩ := h
  exact ⟨_, τ, .cons hstep hrun, List.forall_mem_cons.mpr ⟨hsame, hlater⟩, p,
    List.mem_cons_of_mem _ hp, hwrong⟩

theorem miscredits_of_ack {confirmation : Confirmation}
    {confirmations : List Confirmation} (hholder : σ.holder = some holder)
    (hphase : holder.phase = .awaiting)
    (hconfirmations : σ.confirmations = confirmation :: confirmations)
    (hack : confirmation.ack = true)
    (hacked : ∀ delivery ∈ σ.acked, delivery.call ≠ holder.call) :
    Miscredits publishAttempts σ := by
  obtain ⟨⟨σ', hreceive⟩, hwrong⟩ := miscredited_receive publishAttempts hholder hphase
    hconfirmations hack hacked
  exact ⟨_, σ', .cons hreceive .nil, by simp [SameCall], _, List.mem_cons_self, hwrong⟩

theorem miscredits_of_unconfirmed {delivery : Delivery} {unconfirmed : List Delivery}
    (hholder : σ.holder = some holder) (hphase : holder.phase = .awaiting)
    (hopen : σ.closed = false) (hconfirmations : σ.confirmations = [])
    (hunconfirmed : σ.unconfirmed = delivery :: unconfirmed)
    (hother : delivery.call ≠ holder.call)
    (hacked : ∀ delivery ∈ σ.acked, delivery.call ≠ holder.call) :
    Miscredits publishAttempts σ := by
  refine .cons ?_ (step_confirm publishAttempts hunconfirmed hopen) (by simp)
  have hreceived : σ.confirmations ++ [⟨delivery, true⟩] =
      (⟨delivery, true⟩ : Confirmation) :: [] := by
    rw [hconfirmations, List.nil_append]
  refine miscredits_of_ack hholder hphase hreceived rfl fun other hmem => ?_
  rcases List.mem_append.mp hmem with hold | hnew
  · exact hacked other hold
  · rw [List.mem_singleton.mp hnew]
    exact hother

theorem step_nack (publishAttempts : Int) {delivery : Delivery}
    {confirmations : List Confirmation} (hholder : σ.holder = some holder)
    (hphase : holder.phase = .awaiting)
    (hconfirmations : σ.confirmations = ⟨delivery, false⟩ :: confirmations)
    (hmore : (holder.outcomes.length : Int) + 1 ≠ publishAttempts) :
    step publishAttempts σ .receive =
      some { σ with
        confirmations := confirmations
        holder := some
          { holder with
            phase := .publishing
            outcomes := holder.outcomes ++ [.sent .nack] } } := by
  have hact : act publishAttempts σ .receive = _ :=
    act_receive hholder hphase hconfirmations
  rcases finish_cases publishAttempts { σ with confirmations := confirmations } holder
    (.sent .nack) with ⟨error, _, _, hfinish⟩ | ⟨hlast, _⟩
  · rw [step, hact]
    exact congrArg (fun result => some (Prod.fst result)) hfinish
  · rcases hlast with herror | hlast
    · cases herror
    · exact absurd hlast hmore

/-- What is left over holds an ack, or a publish that may still be acked, behind
fewer nacks than the goroutine has attempts left. -/
theorem exists_miscredited (publishAttempts : Int)
    {nacks rest : List (Delivery × Option Bool)} {o : Delivery × Option Bool}
    (hholder : σ.holder = some holder)
    (hphase : holder.phase = .publishing) (hopen : σ.closed = false)
    (heq : outstanding σ = nacks ++ o :: rest) (hnacks : ∀ x ∈ nacks, x.2 = some false)
    (hremaining : (holder.outcomes.length : Int) + nacks.length < publishAttempts)
    (ho : o.2 ≠ some false) (hother : o.1.call ≠ holder.call)
    (hacked : ∀ delivery ∈ σ.acked, delivery.call ≠ holder.call) :
    Miscredits publishAttempts σ := by
  induction nacks generalizing σ holder rest with
  | nil =>
      refine .cons ?_ (step_publish publishAttempts hholder hphase hopen) (by simp)
      rw [List.nil_append] at heq
      match hvalue : o.2 with
      | some false => exact absurd hvalue ho
      | some true =>
          obtain ⟨confirmations, hconfirmations⟩ :=
            confirmations_of_outstanding heq hvalue
          exact miscredits_of_ack rfl rfl hconfirmations rfl hacked
      | none =>
          obtain ⟨hconfirmations, unconfirmed, hunconfirmed⟩ :=
            unconfirmed_of_outstanding heq hvalue
          have hsent : (sent σ holder).unconfirmed =
              o.1 :: (unconfirmed ++ [⟨holder.call, holder.message⟩]) := by
            rw [sent, hunconfirmed, List.cons_append]
          exact miscredits_of_unconfirmed rfl rfl hopen hconfirmations hsent hother hacked
  | cons x nacks ih =>
      obtain ⟨confirmations, hconfirmations⟩ :=
        confirmations_of_outstanding heq (hnacks x List.mem_cons_self)
      rw [List.length_cons] at hremaining
      have hmore : (holder.outcomes.length : Int) + 1 ≠ publishAttempts := by omega
      have hreceive := step_nack publishAttempts (σ := sent σ holder) rfl rfl
        hconfirmations hmore
      refine .cons (.cons ?_ hreceive (by simp))
        (step_publish publishAttempts hholder hphase hopen) (by simp)
      rw [outstanding_of_received hconfirmations] at heq
      have hrest : outstanding { σ with confirmations := confirmations } =
          nacks ++ o :: rest := (List.cons.inj heq).2
      -- the nack is gone, and the publish of this attempt stands at the end
      have htail : outstanding { sent σ holder with confirmations := confirmations } =
          nacks ++ o :: (rest ++ [(⟨holder.call, holder.message⟩, none)]) := by
        rw [← List.cons_append, ← List.append_assoc, ← hrest]
        simp [outstanding, sent]
      refine ih rfl rfl hopen htail
        (fun y hy => hnacks y (List.mem_cons_of_mem _ hy)) ?_ hother hacked
      simp only [List.length_append, List.length_singleton]
      omega

theorem exists_miscredited_of_not_clear (hsound : Sound publishAttempts σ)
    (hholder : σ.holder = none) (h : ¬ Clear publishAttempts σ) (message : Publishing)
    (contextDone : Bool) :
    ∃ later σ', StepSystem.Run (step publishAttempts) σ
        ((σ, .call message contextDone) :: later) σ' ∧ SameCall later ∧
      ∃ p ∈ (σ, .call message contextDone) :: later, ¬ Credited publishAttempts p := by
  obtain ⟨hready, h⟩ := Classical.not_imp.mp h
  by_cases hattempts : publishAttempts < 1
  · have hact : act publishAttempts σ (.call message contextDone) =
        some ({ σ with calls := σ.calls + 1 }, some ⟨σ.calls, message, [], none⟩) := by
      simp [act, hholder, hready, hattempts]
    refine ⟨[], _, .cons (by rw [step, hact]; rfl) .nil, by simp [SameCall], _,
      List.mem_cons_self, fun hcredited => ?_⟩
    obtain ⟨delivery, hdelivery, hcall, _⟩ :=
      hcredited ⟨σ.calls, message, [], none⟩ (by rw [returned, hact]; rfl) rfl
    exact Nat.ne_of_lt (hsound.acked delivery hdelivery) hcall
  · obtain ⟨hopen, hleft⟩ := Classical.not_imp.mp
      (not_and.mp h (Int.not_lt.mp hattempts))
    have hfind : ((outstanding σ).take publishAttempts.toNat).find?
        (fun o => decide (o.2 ≠ some false)) ≠ none := by
      rw [ne_eq, List.find?_eq_none]
      intro hnone
      exact hleft fun o ho => by simpa using hnone o ho
    obtain ⟨o, ho⟩ := Option.ne_none_iff_exists'.mp hfind
    obtain ⟨hvalue, nacks, rest, htake, hnacks⟩ := List.find?_eq_some_iff_append.mp ho
    have heq : outstanding σ = nacks ++ o :: (rest ++
        (outstanding σ).drop publishAttempts.toNat) := by
      rw [← List.cons_append, ← List.append_assoc, ← htake, List.take_append_drop]
    have hlength := congrArg List.length htake
    simp only [List.length_take, List.length_append, List.length_cons] at hlength
    have hstep : step publishAttempts σ (.call message contextDone) =
        some { σ with
          calls := σ.calls + 1
          holder := some ⟨σ.calls, message, contextDone, .publishing, []⟩ } := by
      simp [step, act, hholder, hready, hattempts]
    have hissued := hsound.issued o (heq ▸ by simp)
    obtain ⟨later, σ', hrun, hsame, p, hp, hwrong⟩ := exists_miscredited
      publishAttempts
      (σ := { σ with
        calls := σ.calls + 1
        holder := some ⟨σ.calls, message, contextDone, .publishing, []⟩ })
      rfl rfl hopen heq (fun x hx => by simpa using hnacks x hx)
      (by simp only [List.length_nil]; omega) (of_decide_eq_true hvalue)
      (Nat.ne_of_lt hissued) (fun d hd => Nat.ne_of_lt (hsound.acked d hd))
    exact ⟨later, σ', .cons hstep hrun, hsame, p, List.mem_cons_of_mem _ hp, hwrong⟩

end LeftOver

/-- Where every call of `Publish` finds nothing left over but nacks, as far as it may
come to take it, each call that returns nil made a publish that the broker acked; and
a call that finds anything else may return nil without. -/
theorem credited_iff (publishAttempts : Int) {trace : List (State × Event)} {σ : State}
    (hrun : Run publishAttempts trace σ) :
    ((∀ p ∈ trace, StepClear publishAttempts p.1 p.2) →
      ∀ p ∈ trace, Credited publishAttempts p) ∧
    (σ.holder = none → ∀ message contextDone,
      ((∀ later σ', StepSystem.Run (step publishAttempts) σ
          ((σ, .call message contextDone) :: later) σ' → SameCall later →
          ∀ p ∈ (σ, .call message contextDone) :: later, Credited publishAttempts p) ↔
        Clear publishAttempts σ)) := by
  have hsound := sound_of_reachable hrun.reachable
  refine ⟨fun hclear => ?_, fun hholder message contextDone => ⟨fun h => ?_, ?_⟩⟩
  · exact credited_of_run hrun (sound_of_reachable (.refl _)) (shielded_of_none rfl) hclear
  · by_contra hnot
    obtain ⟨later, σ', hlater, hsame, p, hp, hwrong⟩ :=
      exists_miscredited_of_not_clear hsound hholder hnot message contextDone
    exact hwrong (h later σ' hlater hsame p hp)
  · intro hclear later σ' hlater hsame
    refine credited_of_run hlater hsound (shielded_of_none hholder) fun p hp => ?_
    rcases List.mem_cons.mp hp with rfl | hp
    · exact fun _ _ _ => hclear
    · exact fun message contextDone hcall => absurd hcall (hsame p hp message contextDone)

section Sample

/-- A second message. -/
def otherPublishing : Publishing :=
  { samplePublishing with body := "\"event-2\"" }

/-- The first wait is abandoned; its confirmation comes when the next call waits. -/
def sampleAbandoned : List Event :=
  [.call samplePublishing false, .publish, .cancel, .abandon "context canceled",
    .call otherPublishing true, .publish, .confirm true, .receive]

/-- The first call is confirmed at its second attempt, the second call has both refused,
and the wait of the third is abandoned. -/
def sampleConfirmed : List Event :=
  [.call samplePublishing false, .publish, .confirm false, .receive, .publish,
    .confirm true, .receive, .call otherPublishing false, .publish, .confirm false,
    .receive, .publish, .confirm false, .receive, .call samplePublishing false, .publish,
    .cancel, .abandon "context canceled", .publish, .abandon "context canceled"]

theorem credited_iff_sample : ∃ σ,
    (σ.holder = none ∧ σ.acked = [⟨0, samplePublishing⟩] ∧ (outstanding σ).length = 2) ∧
    ((∀ p ∈ StepSystem.traceOf (step 2) State.init sampleConfirmed, StepClear 2 p.1 p.2) →
      ∀ p ∈ StepSystem.traceOf (step 2) State.init sampleConfirmed, Credited 2 p) ∧
    (σ.holder = none → ∀ message contextDone,
      ((∀ later σ', StepSystem.Run (step 2) σ
          ((σ, .call message contextDone) :: later) σ' → SameCall later →
          ∀ p ∈ (σ, .call message contextDone) :: later, Credited 2 p) ↔ Clear 2 σ)) := by
  obtain ⟨σ, hσ, hleft⟩ : ∃ σ,
      StepSystem.replay (step 2) State.init sampleConfirmed = some σ ∧
      (σ.holder = none ∧ σ.acked = [⟨0, samplePublishing⟩] ∧
        (outstanding σ).length = 2) := ⟨_, rfl, rfl, rfl, rfl⟩
  exact ⟨σ, hleft, credited_iff 2 (StepSystem.run_of_replay hσ)⟩

/-- The second call returns nil, but the broker has acked the publish of the first. -/
theorem nil_for_abandoned : ∃ trace σ, Run 1 trace σ ∧
    ¬ ∀ p ∈ trace, Credited 1 p := by
  obtain ⟨σ, hσ⟩ : ∃ σ, StepSystem.replay (step 1) State.init sampleAbandoned = some σ :=
    ⟨_, rfl⟩
  refine ⟨_, σ, StepSystem.run_of_replay hσ, fun hcredited => ?_⟩
  have hlast := hcredited _ (List.mem_of_getElem? (i := 7) rfl)
  obtain ⟨delivery, hdelivery, hcall, _⟩ :=
    hlast ⟨1, otherPublishing, [.sent .ack], none⟩ rfl rfl
  obtain rfl : delivery = ⟨0, samplePublishing⟩ := List.mem_singleton.mp hdelivery
  cases hcall

end Sample

end Modularis.Webhook.Confirmations
