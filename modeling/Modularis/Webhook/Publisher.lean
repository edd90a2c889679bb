import Modularis.Foundation.StepSystem

/-!
The publisher of the webhook service.  `b.mu` is a lock that its holder cannot
take again.  Whatever the goroutines do to the bus they do while they hold it,
so that their calls come one after the other; one that has to wait for another
takes no step.  What the broker does is given by the outcome of each attempt.
-/

namespace Modularis.Webhook.Publisher

open Modularis.Foundation

/-- What `PublishWithContext` is given; messages are persistent JSON. -/
structure Publishing where
  exchange : String
  routingKey : String
  body : String
deriving DecidableEq, Repr

/-- How the `select` of `awaitConfirmation` ends. -/
inductive Wait where
  | ack
  | nack
  | closed
  | contextDone (error : String)
deriving DecidableEq, Repr

/-- How an attempt ends: in an error of `PublishWithContext`, or else in a wait. -/
inductive Outcome where
  | refused (error : String)
  | sent (wait : Wait)
deriving DecidableEq, Repr

/-- `handed` are the messages that `PublishWithContext` was given, oldest first. -/
structure Bus where
  locked : Bool
  ready : Bool
  handed : List Publishing
deriving DecidableEq, Repr

/-- Open, ready, and nobody holds the mutex. -/
def newBus : Bus where
  locked := false
  ready := true
  handed := []

/-- The goroutine waits for a lock that it holds. -/
inductive Deadlock where
  | onOwnLock
deriving DecidableEq, Repr

/-- What a goroutine does to the bus while no other holds the lock. -/
abbrev Goroutine := EStateM Deadlock Bus

/-- `Lock` of a goroutine that holds the mutex waits forever. -/
def lock : Goroutine Unit := do
  if (← get).locked then throw .onOwnLock
  modify fun b => { b with locked := true }

/-- `Unlock`. -/
def unlock : Goroutine Unit := modify fun b => { b with locked := false }

/-- It takes the mutex, too. -/
def setNotReady : Goroutine Unit := do
  lock
  modify fun b => { b with ready := false }
  unlock

/-- `none` is a nil error. -/
def awaitConfirmation (routingKey : String) : Wait → Goroutine (Option String)
  | .closed => do
      setNotReady
      return some "rabbitmq publisher confirmation channel closed"
  | .nack =>
      return some ("rabbitmq negatively acknowledged publish for " ++ routingKey)
  | .ack => return none
  | .contextDone error => return some error

/-- The body of the loop of `Publish` up to its result. -/
def attemptOnce (message : Publishing) : Outcome → Goroutine (Option String)
  | .refused error => do
      modify fun b => { b with handed := b.handed ++ [message] }
      return some error
  | .sent wait => do
      modify fun b => { b with handed := b.handed ++ [message] }
      awaitConfirmation message.routingKey wait

/-- The loop of `Publish` from an attempt on. -/
def publishFrom (message : Publishing) (outcomes : Nat → Outcome) (attempt : Nat)
    (lastErr : Option String) : Nat → Goroutine (Option String)
  | 0 => return lastErr
  | remaining + 1 => do
      match ← attemptOnce message (outcomes attempt) with
      | none => return none
      | some error => publishFrom message outcomes (attempt + 1) (some error) remaining

/-- `Publish` holds the mutex until it returns. -/
def publish (publishAttempts : Int) (message : Publishing)
    (outcomes : Nat → Outcome) : Goroutine (Option String) := do
  lock
  if (← get).ready then
    let result ← publishFrom message outcomes 1 none publishAttempts.toNat
    unlock
    return result
  else
    unlock
    return some "rabbitmq publisher is not ready"

/-- `Ready`. -/
def isReady : Goroutine Bool := do
  lock
  let ready := (← get).ready
  unlock
  return ready

section Publish

variable {message : Publishing} {outcomes : Nat → Outcome} {bus : Bus}
  {publishAttempts : Int}

/-- The bus after a message was handed over a number of times. -/
def Bus.hand (bus : Bus) (message : Publishing) (n : Nat) : Bus :=
  { bus with handed := bus.handed ++ List.replicate n message }

@[simp] theorem hand_zero : bus.hand message 0 = bus := by simp [Bus.hand]

theorem hand_hand (n : Nat) :
    (bus.hand message 1).hand message n = bus.hand message (n + 1) := by
  simp [Bus.hand, List.replicate_succ]

theorem attemptOnce_closed (h : bus.locked = true) :
    (attemptOnce message (.sent .closed)).run bus =
      .error .onOwnLock (bus.hand message 1) := by
  simp [attemptOnce, awaitConfirmation, setNotReady, lock, Bus.hand, h]

theorem attemptOnce_ack :
    (attemptOnce message (.sent .ack)).run bus = .ok none (bus.hand message 1) := rfl

theorem attemptOnce_failed {outcome : Outcome} (hack : outcome ≠ .sent .ack)
    (hclosed : outcome ≠ .sent .closed) : ∃ error,
      (attemptOnce message outcome).run bus = .ok (some error) (bus.hand message 1) := by
  match outcome with
  | .refused _ | .sent .nack | .sent (.contextDone _) => exact ⟨_, rfl⟩
  | .sent .ack => exact absurd rfl hack
  | .sent .closed => exact absurd rfl hclosed

/-- Among a number of attempts one comes to a closed confirmation channel before
any is acked. -/
def MeetsClosed (outcomes : Nat → Outcome) (attempt remaining : Nat) : Prop :=
  ∃ k < remaining, outcomes (attempt + k) = .sent .closed ∧
    ∀ j < k, outcomes (attempt + j) ≠ .sent .ack

theorem meetsClosed_of_closed {attempt : Nat} (remaining : Nat)
    (h : outcomes attempt = .sent .closed) :
    MeetsClosed outcomes attempt (remaining + 1) :=
  ⟨0, Nat.succ_pos remaining, h, by simp⟩

theorem not_meetsClosed_of_ack {attempt : Nat} (remaining : Nat)
    (h : outcomes attempt = .sent .ack) : ¬ MeetsClosed outcomes attempt remaining := by
  rintro ⟨k, _, hclosed, hack⟩
  cases k with
  | zero =>
      rw [Nat.add_zero, h] at hclosed
      cases hclosed
  | succ k => exact hack 0 (Nat.succ_pos k) h

theorem meetsClosed_succ {attempt remaining : Nat}
    (hack : outcomes attempt ≠ .sent .ack) (hclosed : outcomes attempt ≠ .sent .closed) :
    MeetsClosed outcomes attempt (remaining + 1) ↔
      MeetsClosed outcomes (attempt + 1) remaining := by
  constructor
  · rintro ⟨k, hk, hclosed', hack'⟩
    cases k with
    | zero => exact absurd hclosed' hclosed
    | succ k =>
        refine ⟨k, by omega, by rwa [Nat.add_right_comm], fun j hj => ?_⟩
        rw [Nat.add_right_comm]
        exact hack' (j + 1) (by omega)
  · rintro ⟨k, hk, hclosed', hack'⟩
    refine ⟨k + 1, by omega, by rwa [← Nat.add_assoc, Nat.add_right_comm], ?_⟩
    rintro (_ | j) hj
    · exact hack
    · rw [← Nat.add_assoc, Nat.add_right_comm]
      exact hack' j (by omega)

/-- How the loop of `Publish` ends after `k` attempts. -/
inductive LoopEnds (message : Publishing) (outcomes : Nat → Outcome)
    (attempt : Nat) (lastErr : Option String) (remaining : Nat) (bus : Bus) :
    EStateM.Result Deadlock Bus (Option String) → Prop
  | blocked (k : Nat) : MeetsClosed outcomes attempt remaining →
      LoopEnds message outcomes attempt lastErr remaining bus
        (.error .onOwnLock (bus.hand message k))
  | unattempted : remaining = 0 →
      LoopEnds message outcomes attempt lastErr remaining bus (.ok lastErr bus)
  | acked (k : Nat) : ¬ MeetsClosed outcomes attempt remaining → 0 < remaining →
      outcomes (attempt + k) = .sent .ack →
      LoopEnds message outcomes attempt lastErr remaining bus
        (.ok none (bus.hand message (k + 1)))
  | failed (error : String) (k : Nat) : ¬ MeetsClosed outcomes attempt remaining →
      0 < remaining → LoopEnds message outcomes attempt lastErr remaining bus
        (.ok (some error) (bus.hand message k))

theorem loopEnds_publishFrom (attempt : Nat) (lastErr : Option String)
    (remaining : Nat) (h : bus.locked = true) :
    LoopEnds message outcomes attempt lastErr remaining bus
      ((publishFrom message outcomes attempt lastErr remaining).run bus) := by
  induction remaining generalizing attempt lastErr bus with
  | zero => exact .unattempted rfl
  | succ remaining ih =>
      rw [publishFrom, EStateM.run_bind]
      by_cases hack : outcomes attempt = .sent .ack
      · rw [hack, attemptOnce_ack]
        exact .acked 0 (not_meetsClosed_of_ack _ hack) (Nat.succ_pos _) hack
      · by_cases hclosed : outcomes attempt = .sent .closed
        · rw [hclosed, attemptOnce_closed h]
          exact .blocked 1 (meetsClosed_of_closed remaining hclosed)
        · obtain ⟨error, hrun⟩ : ∃ error, (attemptOnce message (outcomes attempt)).run
              bus = .ok (some error) (bus.hand message 1) :=
            attemptOnce_failed hack hclosed
          rw [hrun]
          change LoopEnds _ _ _ _ _ _ ((publishFrom message outcomes (attempt + 1)
            (some error) remaining).run (bus.hand message 1))
          have hlocked : (bus.hand message 1).locked = true := h
          have hrest := ih (attempt + 1) (some error) hlocked
          generalize (publishFrom message outcomes (attempt + 1) (some error)
            remaining).run (bus.hand message 1) = result at hrest
          have hmeets : MeetsClosed outcomes attempt (remaining + 1) ↔ _ :=
            meetsClosed_succ hack hclosed
          cases hrest with
          | blocked k hmeets' =>
              rw [hand_hand]
              exact .blocked _ (hmeets.mpr hmeets')
          | unattempted hzero =>
              refine .failed error 1 ?_ (Nat.succ_pos _)
              rw [hmeets, hzero]
              rintro ⟨k, hk, _⟩
              exact absurd hk (Nat.not_lt_zero k)
          | acked k hnot _ hack' =>
              rw [hand_hand]
              rw [Nat.add_right_comm] at hack'
              exact .acked (k + 1) (fun h => hnot (hmeets.mp h)) (Nat.succ_pos _) hack'
          | failed error' k hnot _ =>
              rw [hand_hand]
              exact .failed error' _ (fun h => hnot (hmeets.mp h)) (Nat.succ_pos _)

/-- `Publish` returns with the lock released, and with nil only if the last of its
attempts was acked. -/
def Returns (publishAttempts : Int) (message : Publishing) (outcomes : Nat → Outcome)
    (bus : Bus) : Prop :=
  ∃ err bus', (publish publishAttempts message outcomes).run bus = .ok err bus' ∧
    bus'.locked = false ∧
    (err = none → ∃ k, 0 < k ∧ bus'.handed = bus.handed ++ List.replicate k message ∧
      outcomes k = .sent .ack)

/-- A publisher that is ready makes an attempt, and none comes to a closed
confirmation channel. -/
def Sheltered (publishAttempts : Int) (outcomes : Nat → Outcome) (bus : Bus) : Prop :=
  bus.ready = true →
    0 < publishAttempts ∧ ¬ MeetsClosed outcomes 1 publishAttempts.toNat

theorem publish_of_not_ready (hlocked : bus.locked = false)
    (hready : bus.ready = false) :
    (publish publishAttempts message outcomes).run bus =
      .ok (some "rabbitmq publisher is not ready") bus := by
  obtain ⟨locked, ready, handed⟩ := bus
  obtain rfl : locked = false := hlocked
  obtain rfl : ready = false := hready
  rfl

theorem publish_of_ready (hlocked : bus.locked = false) (hready : bus.ready = true) :
    (publish publishAttempts message outcomes).run bus =
      match (publishFrom message outcomes 1 none publishAttempts.toNat).run
        { bus with locked := true } with
      | .ok err bus' => .ok err { bus' with locked := false }
      | .error deadlock bus' => .error deadlock bus' := by
  obtain ⟨locked, ready, handed⟩ := bus
  obtain rfl : locked = false := hlocked
  obtain rfl : ready = true := hready
  have hlock : (publish publishAttempts message outcomes).run ⟨false, true, handed⟩ =
      (do
        let result ← publishFrom message outcomes 1 none publishAttempts.toNat
        unlock
        return result : Goroutine (Option String)).run ⟨true, true, handed⟩ := rfl
  rw [hlock, EStateM.run_bind]
  generalize (publishFrom message outcomes 1 none publishAttempts.toNat).run
    ⟨true, true, handed⟩ = result
  cases result <;> rfl

theorem returns_iff (hlocked : bus.locked = false) :
    Returns publishAttempts message outcomes bus ↔
      Sheltered publishAttempts outcomes bus := by
  unfold Returns Sheltered
  cases hready : bus.ready with
  | false =>
      rw [publish_of_not_ready hlocked hready]
      refine iff_of_true ⟨_, bus, rfl, hlocked, ?_⟩ ?_
      · rintro ⟨⟩
      · rintro ⟨⟩
  | true =>
      rw [publish_of_ready hlocked hready]
      have hends : LoopEnds message outcomes 1 none publishAttempts.toNat
          { bus with locked := true } _ := loopEnds_publishFrom 1 none _ rfl
      generalize (publishFrom message outcomes 1 none publishAttempts.toNat).run
        { bus with locked := true } = result at hends
      cases hends with
      | blocked k hmeets =>
          refine iff_of_false ?_ fun h => (h rfl).2 hmeets
          rintro ⟨err, bus', hrun, _⟩
          cases hrun
      | unattempted hzero =>
          refine iff_of_false ?_ fun h => ?_
          · rintro ⟨err, bus', hrun, _, hnil⟩
            cases hrun
            obtain ⟨k, hk, hhanded, _⟩ := hnil rfl
            have hlength := congrArg List.length hhanded
            simp at hlength
            omega
          · have := (h rfl).1
            omega
      | acked k hnot hpos hack =>
          refine iff_of_true ⟨none, _, rfl, rfl, fun _ => ?_⟩ fun _ => ⟨?_, hnot⟩
          · exact ⟨k + 1, Nat.succ_pos k, rfl, Nat.add_comm 1 k ▸ hack⟩
          · omega
      | failed error k hnot hpos =>
          refine iff_of_true ⟨some error, _, rfl, rfl, ?_⟩ fun _ => ⟨?_, hnot⟩
          · rintro ⟨⟩
          · omega

end Publish

/-- A call of a goroutine.  `Close` and the goroutine of `watchConnection`, once
the connection or the channel is closed, do the same to the bus. -/
inductive Call where
  | publish (message : Publishing) (outcomes : Nat → Outcome)
  | isReady
  | close
  | watchConnection

/-- The bus, whatever has become of the goroutine. -/
def stateAfter {α : Type} : EStateM.Result Deadlock Bus α → Bus
  | .ok _ bus | .error _ bus => bus

/-- A goroutine gets the lock and goes on until it releases it or waits for it
itself.  While the lock is held the others wait. -/
def step (publishAttempts : Int) (bus : Bus) (call : Call) : Option Bus :=
  if bus.locked then none
  else
    match call with
    | .publish message outcomes =>
        some (stateAfter ((publish publishAttempts message outcomes).run bus))
    | .isReady => some (stateAfter (isReady.run bus))
    | .close | .watchConnection => some (stateAfter (setNotReady.run bus))

abbrev Run (publishAttempts : Int) :=
  StepSystem.Run (step publishAttempts) newBus

/-- The connection is closed, or a wait comes to a closed confirmation channel. -/
def Closes (publishAttempts : Int) (p : Bus × Call) : Prop :=
  match p.2 with
  | .publish _ outcomes =>
      p.1.ready = true ∧ MeetsClosed outcomes 1 publishAttempts.toNat
  | .isReady => False
  | .close | .watchConnection => True

/-- `Publish` on this bus fails without an attempt. -/
def FailsAtOnce (publishAttempts : Int) (bus : Bus) : Prop :=
  bus.ready = false ∧ ∀ message outcomes,
    (publish publishAttempts message outcomes).run bus =
      .ok (some "rabbitmq publisher is not ready") bus

/-- No goroutine waits for a lock that it holds. -/
structure NeverBlocks (publishAttempts : Int) (trace : List (Bus × Call))
    (bus : Bus) : Prop where
  released : bus.locked = false
  returns : ∀ b message outcomes, (b, Call.publish message outcomes) ∈ trace →
    Returns publishAttempts message outcomes b
  closed : ∀ before p after, trace = before ++ p :: after →
    Closes publishAttempts p →
    FailsAtOnce publishAttempts bus ∧ ∀ q ∈ after, FailsAtOnce publishAttempts q.1

/-- A `Publish` that a step makes is sheltered. -/
def StepSheltered (publishAttempts : Int) (bus : Bus) (call : Call) : Prop :=
  ∀ message outcomes, call = .publish message outcomes →
    Sheltered publishAttempts outcomes bus

section Runs

variable {publishAttempts : Int} {trace : List (Bus × Call)} {bus bus' : Bus}
  {call : Call}

theorem unlocked_of_step (h : step publishAttempts bus call = some bus') :
    bus.locked = false := by
  cases hlocked : bus.locked with
  | false => rfl
  | true =>
      unfold step at h
      rw [hlocked, if_pos rfl] at h
      cases h

theorem step_of_unlocked (h : bus.locked = false) : step publishAttempts bus call =
    match call with
    | .publish message outcomes =>
        some (stateAfter ((publish publishAttempts message outcomes).run bus))
    | .isReady => some bus
    | .close | .watchConnection => some { bus with ready := false } := by
  obtain ⟨locked, ready, handed⟩ := bus
  obtain rfl : locked = false := h
  cases call <;> rfl

theorem failsAtOnce_of_not_ready (hlocked : bus.locked = false)
    (hready : bus.ready = false) : FailsAtOnce publishAttempts bus :=
  ⟨hready, fun _ _ => publish_of_not_ready hlocked hready⟩

/-- A step that does not block leaves the lock released; a bus that is not ready
stays so, and becomes so when it is closed. -/
theorem unlocked_after_step (hstep : step publishAttempts bus call = some bus')
    (hall : StepSheltered publishAttempts bus call) :
    bus'.locked = false ∧
      (bus.ready = false ∨ Closes publishAttempts (bus, call) → bus'.ready = false) := by
  have hlocked := unlocked_of_step hstep
  rw [step_of_unlocked hlocked] at hstep
  cases call with
  | publish message outcomes =>
      obtain rfl := Option.some.inj hstep
      have hsheltered := hall message outcomes rfl
      have hreturns : Returns publishAttempts message outcomes bus :=
        (returns_iff hlocked).mpr hsheltered
      obtain ⟨err, bus', hrun, hunlocked, _⟩ := hreturns
      refine ⟨by rw [hrun]; exact hunlocked, ?_⟩
      rintro (hnot | ⟨hready, hmeets⟩)
      · rw [publish_of_not_ready hlocked hnot]
        exact hnot
      · exact absurd hmeets (hsheltered hready).2
  | isReady =>
      obtain rfl := Option.some.inj hstep
      exact ⟨hlocked, fun h => h.resolve_right id⟩
  | close | watchConnection =>
      obtain rfl := Option.some.inj hstep
      exact ⟨hlocked, fun _ => rfl⟩

theorem closed_of_run (hrun : StepSystem.Run (step publishAttempts) bus trace bus')
    (hlocked : bus.locked = false) (hready : bus.ready = false)
    (hsheltered : ∀ p ∈ trace, StepSheltered publishAttempts p.1 p.2) :
    FailsAtOnce publishAttempts bus' ∧
      ∀ q ∈ trace, FailsAtOnce publishAttempts q.1 := by
  have hkept := hrun.always (I := fun b => b.locked = false ∧ b.ready = false)
    (StepSheltered publishAttempts) ⟨hlocked, hready⟩ (fun b c b' hb hok hstep => by
      obtain ⟨hunlocked, hclosed⟩ := unlocked_after_step hstep hok
      exact ⟨hunlocked, hclosed (.inl hb.2)⟩) hsheltered
  refine ⟨failsAtOnce_of_not_ready hkept.2.1 hkept.2.2, fun q hq => ?_⟩
  obtain ⟨hunlocked, hnot⟩ := hkept.1 q hq
  exact failsAtOnce_of_not_ready hunlocked hnot

/-- No goroutine of a run waits for a lock that it holds exactly if each
`Publish` on a ready bus makes an attempt and comes to no closed confirmation
channel. -/
theorem never_blocks_iff (publishAttempts : Int) {trace : List (Bus × Call)}
    {bus : Bus} (hrun : Run publishAttempts trace bus) :
    NeverBlocks publishAttempts trace bus ↔
      ∀ b message outcomes, (b, Call.publish message outcomes) ∈ trace →
        Sheltered publishAttempts outcomes b := by
  have hunlocked : ∀ p ∈ trace, p.1.locked = false := by
    intro p hp
    obtain ⟨before, after, rfl⟩ := List.append_of_mem hp
    obtain ⟨_, _, hstep, _⟩ := hrun.split rfl
    exact unlocked_of_step hstep
  constructor
  · intro hnever b message outcomes hmem
    exact (returns_iff (hunlocked _ hmem)).mp (hnever.returns b message outcomes hmem)
  · intro hsheltered
    have hok : ∀ p ∈ trace, StepSheltered publishAttempts p.1 p.2 := by
      rintro ⟨b, call⟩ hp message outcomes rfl
      exact hsheltered b message outcomes hp
    refine ⟨?_, fun b message outcomes hmem => ?_, ?_⟩
    · exact hrun.invariant (I := fun b => b.locked = false)
        (StepSheltered publishAttempts) rfl
        (fun _ _ _ _ hok hstep => (unlocked_after_step hstep hok).1) hok
    · exact (returns_iff (hunlocked _ hmem)).mpr (hsheltered b message outcomes hmem)
    · rintro before p after rfl hcloses
      obtain ⟨u, _, hstep, hafter⟩ := hrun.split rfl
      obtain ⟨hlocked, hclosed⟩ := unlocked_after_step hstep (hok p (by simp))
      refine closed_of_run hafter hlocked (hclosed (.inr hcloses)) fun q hq => ?_
      exact hok q (by simp [hq])

end Runs

section Sample

def samplePublishing : Publishing where
  exchange := "modularis.events"
  routingKey := "payment.callback.confirmed"
  body := ""

/-- The channel is closed while the only message waits for its confirmation. -/
def sampleClosed : Call := .publish samplePublishing fun _ => .sent .closed

def sampleAcked : Call := .publish samplePublishing fun _ => .sent .ack

/-- The broker refuses the message and then takes it. -/
def sampleNacked : Call :=
  .publish samplePublishing fun n => if n = 1 then .sent .nack else .sent .ack

/-- Two messages go out, one of them at its second attempt; after the channel is closed
none does. -/
def sampleCalls : List Call := [sampleNacked, sampleAcked, .close, sampleAcked]

theorem never_blocks_iff_sample : ∃ bus,
    (bus.locked = false ∧ bus.ready = false ∧ bus.handed.length = 3) ∧
    (NeverBlocks 3 (StepSystem.traceOf (step 3) newBus sampleCalls) bus ↔
      ∀ b message outcomes, (b, Call.publish message outcomes) ∈
        StepSystem.traceOf (step 3) newBus sampleCalls → Sheltered 3 outcomes b) := by
  obtain ⟨bus, hbus, hleft⟩ : ∃ bus, StepSystem.replay (step 3) newBus sampleCalls = some bus ∧
    (bus.locked = false ∧ bus.ready = false ∧ bus.handed.length = 3) :=
      ⟨_, rfl, rfl, rfl, rfl⟩
  exact ⟨bus, hleft, never_blocks_iff 3 (StepSystem.run_of_replay hbus)⟩

/-- The goroutine of `Publish` waits for its own lock, and so do all others. -/
theorem blocked_by_closed_channel : ∃ trace bus, Run 3 trace bus ∧
    (newBus, sampleClosed) ∈ trace ∧ ¬ NeverBlocks 3 trace bus ∧
    ∀ call, step 3 bus call = none := by
  obtain ⟨bus, hbus, hlocked⟩ : ∃ bus, StepSystem.replay (step 3) newBus
    [sampleClosed] = some bus ∧ bus.locked = true := ⟨_, rfl, rfl⟩
  refine ⟨_, bus, StepSystem.run_of_replay hbus, List.mem_cons_self, ?_, ?_⟩
  · intro hnever
    rw [hnever.released] at hlocked
    cases hlocked
  · intro call
    unfold step
    rw [hlocked, if_pos rfl]

end Sample

end Modularis.Webhook.Publisher
