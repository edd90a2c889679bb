import Modularis.Foundation.WrappedGrowth
import Modularis.Shared.Durations

namespace Modularis.Shared.Backoff

open Modularis.Foundation.GoInt
open Modularis.Foundation.WrappedGrowth
open Modularis.Shared.Durations

/-- The delay before a later attempt is no shorter than one before it, and never
shorter than the base. -/
def Grows (base backoff a b : Int) : Prop :=
  base ≤ backoffDelay a base backoff ∧
    backoffDelay a base backoff ≤ backoffDelay b base backoff

/-- Over all attempts that can be counted; and the next attempt is never in the past. -/
def NeverShrinks (base backoff : Int) : Prop :=
  ∀ a b, 1 ≤ a → a ≤ b → b ≤ maxInt64 → Grows base backoff a b ∧
    ∀ now, now ≤ now + backoffDelay b base backoff

section Delays

variable {base backoff : Int}

theorem multiplier_eq (backoff : Int) (i : Nat) :
    multiplier backoff i = wrapInt64 (backoff ^ i) := by
  induction i with
  | zero =>
      rw [pow_zero]
      rfl
  | succ i ih => rw [multiplier, ih, wrapInt64_mul, pow_succ]

theorem backoffDelay_eq_base (hbackoff : backoff ≤ 1) (attempt : Int) :
    backoffDelay attempt base backoff = base := if_pos (.inr hbackoff)

theorem backoffDelay_eq_term (hzero : 0 ≤ base) (hmax : base ≤ maxInt64)
    (hbackoff : 1 < backoff) {attempt : Int} (hattempt : 1 ≤ attempt) :
    backoffDelay attempt base backoff = term backoff base (attempt - 1).toNat := by
  by_cases hfirst : attempt ≤ 1
  · obtain rfl : attempt = 1 := le_antisymm hfirst hattempt
    exact (term_zero (le_trans (by decide) hzero) hmax).symm
  · have hloop : ¬ (attempt ≤ 1 ∨ backoff ≤ 1) := by omega
    rw [backoffDelay, if_neg hloop, multiplier_eq, wrapInt64_mul, term]

theorem neverShrinks_iff_neverFalls (hzero : 0 ≤ base) (hmax : base ≤ maxInt64)
    (hbackoff : 1 < backoff) :
    NeverShrinks base backoff ↔ NeverFalls backoff base (maxInt64 - 1).toNat := by
  constructor
  · intro h j k hjk hk
    have hgrows := (h (j + 1) (k + 1) (by omega) (by omega) (by unfold maxInt64 at *; omega)).1
    rw [Grows, backoffDelay_eq_term hzero hmax hbackoff (by omega),
      backoffDelay_eq_term hzero hmax hbackoff (by omega)] at hgrows
    simpa using hgrows
  · intro h a b ha hab hb
    have hgrows : Grows base backoff a b := by
      rw [Grows, backoffDelay_eq_term hzero hmax hbackoff ha,
        backoffDelay_eq_term hzero hmax hbackoff (ha.trans hab)]
      exact h _ _ (by omega) (by omega)
    exact ⟨hgrows, fun now => le_add_of_nonneg_right (hzero.trans (hgrows.1.trans hgrows.2))⟩

/-- The delays never shrink exactly if they never change: where the factor does
nothing, or nothing modulo `2 ^ 64`.  Two delays are in order as long as the product
behind the later one fits in 64 bits. -/
theorem never_shrinks_iff (base backoff : Int) (hzero : 0 ≤ base) (hmax : base ≤ maxInt64) :
    (NeverShrinks base backoff ↔ backoff ≤ 1 ∨ 2 ^ 64 ∣ (backoff - 1) * base) ∧
    ∀ a b, 1 ≤ a → a ≤ b → backoff ^ (b - 1).toNat * base ≤ maxInt64 →
      Grows base backoff a b := by
  rcases le_or_gt backoff 1 with hbackoff | hbackoff
  · have hgrows : ∀ a b, Grows base backoff a b := fun a b => by
      rw [Grows, backoffDelay_eq_base hbackoff, backoffDelay_eq_base hbackoff]
      exact ⟨le_rfl, le_rfl⟩
    refine ⟨iff_of_true (fun a b _ _ _ => ⟨hgrows a b, fun now => ?_⟩) (.inl hbackoff),
      fun a b _ _ _ => hgrows a b⟩
    rw [backoffDelay_eq_base hbackoff]
    exact le_add_of_nonneg_right hzero
  · constructor
    · have hlast : maxInt64 ≤ ((maxInt64 - 1).toNat : Int) + 1 := by decide
      rw [neverShrinks_iff_neverFalls hzero hmax hbackoff,
        neverFalls_iff hzero hmax hlast]
      exact (or_iff_right hbackoff.not_ge).symm
    · intro a b ha hab hfits
      rw [Grows, backoffDelay_eq_term hzero hmax hbackoff ha,
        backoffDelay_eq_term hzero hmax hbackoff (ha.trans hab)]
      exact term_le_term hbackoff.le hzero (by omega) hfits

end Delays

section Sample

/-- The default configuration of the payment service: 100 ms and a factor of 2. -/
def sampleBase : Int := 100000000

theorem never_shrinks_iff_sample :
    (NeverShrinks sampleBase 2 ↔ (2 : Int) ≤ 1 ∨ 2 ^ 64 ∣ ((2 : Int) - 1) * sampleBase) ∧
    ∀ a b, 1 ≤ a → a ≤ b → (2 : Int) ^ (b - 1).toNat * sampleBase ≤ maxInt64 →
      Grows sampleBase 2 a b :=
  never_shrinks_iff sampleBase 2 (by decide) (by decide)

/-- After 37 failed attempts the delay is negative. -/
theorem delay_negative : backoffDelay 38 sampleBase 2 < 0 ∧ ¬ Grows sampleBase 2 37 38 ∧
    ¬ NeverShrinks sampleBase 2 := by
  have hdelay : backoffDelay 38 sampleBase 2 < 0 := by decide +kernel
  have hnot : ¬ Grows sampleBase 2 37 38 := fun h =>
    absurd (h.1.trans h.2) (hdelay.trans (by decide)).not_ge
  refine ⟨hdelay, hnot, fun h => hnot ?_⟩
  exact (h 37 38 (by decide) (by decide) (by decide)).1

end Sample

end Modularis.Shared.Backoff
