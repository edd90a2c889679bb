import Mathlib.Algebra.Order.Ring.Int
import Mathlib.RingTheory.Int.Basic
import Modularis.Foundation.GoInt

namespace Modularis.Foundation.WrappedGrowth

open Modularis.Foundation.GoInt

theorem wrapInt64_of_le {n : Int} (hlow : minInt64 ≤ n) (hhigh : n ≤ maxInt64) :
    wrapInt64 n = n := by
  unfold minInt64 at hlow
  unfold maxInt64 at hhigh
  exact Int.bmod_eq_of_le (by omega) (by omega)

theorem wrapInt64_le (n : Int) : wrapInt64 n ≤ maxInt64 := by
  have hlt : n.bmod (2 ^ 64) < ((2 ^ 64 : Nat) + 1) / 2 := Int.bmod_lt (by decide)
  unfold wrapInt64 maxInt64
  omega

theorem wrapInt64_eq_iff {m n : Int} : wrapInt64 m = wrapInt64 n ↔ 2 ^ 64 ∣ m - n := by
  have hdvd : ((2 ^ 64 : Nat) : Int) ∣ m - n ↔ (m - n).bmod (2 ^ 64) = 0 :=
    Int.dvd_iff_bmod_eq_zero
  rw [wrapInt64, wrapInt64, Int.bmod_eq_bmod_iff_bmod_sub_eq_zero, ← hdvd]
  norm_cast

theorem wrapInt64_mul (m n : Int) : wrapInt64 (wrapInt64 m * n) = wrapInt64 (m * n) :=
  Int.bmod_mul_bmod

section Terms

variable {factor first : Int}

/-- The term after `k` multiplications. -/
def term (factor first : Int) (k : Nat) : Int := wrapInt64 (factor ^ k * first)

/-- Up to `last` no term is less than the first, or than one before it. -/
def NeverFalls (factor first : Int) (last : Nat) : Prop :=
  ∀ j k, j ≤ k → k ≤ last → first ≤ term factor first j ∧
    term factor first j ≤ term factor first k

theorem term_zero (hlow : minInt64 ≤ first) (hhigh : first ≤ maxInt64) :
    term factor first 0 = first := by
  rw [term, pow_zero, one_mul, wrapInt64_of_le hlow hhigh]

theorem term_eq_succ_iff (k : Nat) :
    term factor first (k + 1) = term factor first k ↔
      2 ^ 64 ∣ factor ^ k * ((factor - 1) * first) := by
  have hdiff : factor ^ (k + 1) * first - factor ^ k * first =
      factor ^ k * ((factor - 1) * first) := by ring
  rw [term, term, wrapInt64_eq_iff, hdiff]

theorem term_of_dvd (hlow : minInt64 ≤ first) (hhigh : first ≤ maxInt64)
    (hdvd : 2 ^ 64 ∣ (factor - 1) * first) (k : Nat) : term factor first k = first := by
  induction k with
  | zero => exact term_zero hlow hhigh
  | succ k ih => rw [(term_eq_succ_iff k).mpr (Dvd.dvd.mul_left hdvd _), ih]

theorem term_of_even (heven : Even factor) : term factor first 64 = 0 := by
  have hdvd : (2 : Int) ^ 64 ∣ factor ^ 64 * first - 0 := by
    rw [sub_zero]
    exact Dvd.dvd.mul_right (pow_dvd_pow_of_dvd heven.two_dvd 64) first
  exact wrapInt64_eq_iff.mpr hdvd

theorem term_ne_succ_of_odd (hodd : Odd factor)
    (hmoves : ¬ 2 ^ 64 ∣ (factor - 1) * first) (k : Nat) :
    term factor first (k + 1) ≠ term factor first k := by
  rw [Ne, term_eq_succ_iff]
  intro hdvd
  have hcoprime : IsCoprime ((2 : Int) ^ 64) (factor ^ k) :=
    (Int.isCoprime_two_left.mpr hodd).pow
  exact hmoves (hcoprime.dvd_of_dvd_mul_left hdvd)

theorem climb {last : Nat} (hgrows : NeverFalls factor first last)
    (hmoves : ∀ k, term factor first (k + 1) ≠ term factor first k) (k : Nat)
    (hk : k + 1 ≤ last) : term factor first 1 + k ≤ term factor first (k + 1) := by
  induction k with
  | zero => simp
  | succ k ih =>
      have hbefore := ih (by omega)
      have hstep := (hgrows (k + 1) (k + 1 + 1) (by omega) hk).2
      have hne := hmoves (k + 1)
      push_cast
      omega

theorem neverFalls_iff (hzero : 0 ≤ first) (hhigh : first ≤ maxInt64) {last : Nat}
    (hlast : maxInt64 ≤ last + 1) :
    NeverFalls factor first last ↔ 2 ^ 64 ∣ (factor - 1) * first := by
  have hlow : minInt64 ≤ first := le_trans (by decide) hzero
  constructor
  · intro hgrows
    by_contra hmoves
    have hpos : first ≠ 0 := by
      rintro rfl
      simp at hmoves
    unfold maxInt64 at hlast
    rcases Int.even_or_odd factor with heven | hodd
    · have hleast := (hgrows 64 64 le_rfl (by omega)).1
      rw [term_of_even heven] at hleast
      omega
    · have hne := term_ne_succ_of_odd hodd hmoves
      -- from 1 on the terms are the numbers in order, up to the greatest there is
      have hclimb := climb hgrows hne (last - 1) (by omega)
      rw [Nat.sub_add_cancel (by omega)] at hclimb
      have htop := wrapInt64_le (factor ^ last * first)
      have hfirst := (hgrows 0 1 (Nat.zero_le 1) (by omega)).2
      have hsecond := hne 0
      rw [term_zero hlow hhigh] at hfirst
      rw [zero_add, term_zero hlow hhigh] at hsecond
      change term factor first last ≤ maxInt64 at htop
      unfold maxInt64 at htop
      push_cast [Nat.cast_sub (by omega : 1 ≤ last)] at hclimb
      have hone : first = 1 := by omega
      have htwo : term factor first 1 = 2 := by omega
      have hdvd : 2 ^ 64 ∣ factor ^ 1 * first - 2 :=
        wrapInt64_eq_iff.mp (htwo.trans (by decide))
      rw [hone, pow_one, mul_one] at hdvd
      obtain ⟨m, hm⟩ := hodd
      omega
  · intro hdvd j k _ _
    rw [term_of_dvd hlow hhigh hdvd, term_of_dvd hlow hhigh hdvd]
    exact ⟨le_rfl, le_rfl⟩

theorem term_le_term (hfactor : 1 ≤ factor) (hzero : 0 ≤ first) {j k : Nat} (hjk : j ≤ k)
    (hfits : factor ^ k * first ≤ maxInt64) :
    first ≤ term factor first j ∧ term factor first j ≤ term factor first k := by
  have hpow : factor ^ j ≤ factor ^ k := pow_le_pow_right₀ hfactor hjk
  have hterm : ∀ i, factor ^ i * first ≤ maxInt64 →
      term factor first i = factor ^ i * first := fun i hi =>
    wrapInt64_of_le (le_trans (by decide)
      (mul_nonneg (pow_nonneg (zero_le_one.trans hfactor) i) hzero)) hi
  have hle : factor ^ j * first ≤ factor ^ k * first :=
    mul_le_mul_of_nonneg_right hpow hzero
  rw [hterm j (hle.trans hfits), hterm k hfits]
  exact ⟨le_mul_of_one_le_left hzero (one_le_pow₀ hfactor), hle⟩

end Terms

end Modularis.Foundation.WrappedGrowth
