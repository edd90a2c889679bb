import Mathlib.Algebra.Order.Group.Abs
import Mathlib.Algebra.Order.Group.Int
import Modularis.Foundation.GoTime
import Modularis.Shared.Durations

namespace Modularis.Shared.Tolerance

open Modularis.Foundation.GoInt
open Modularis.Foundation.GoTime
open Modularis.Shared.Durations

/-- The exact distance of two times is within the tolerance. -/
def Near (now t tolerance : Int) : Prop := |now - t| ≤ tolerance

/-- The test passes whatever the distance: the difference saturates to the least
duration, which is its own negative, or to the greatest one, which the tolerance
reaches. -/
def Masked (now t tolerance : Int) : Prop :=
  now - t ≤ minInt64 ∨ maxInt64 < now - t ∧ tolerance = maxInt64

theorem sub_of_le {now t : Int} (h : now - t ≤ minInt64) :
    sub now t = minInt64 := by
  unfold sub minInt64 maxInt64 at *
  omega

theorem sub_of_gt {now t : Int} (h : maxInt64 < now - t) :
    sub now t = maxInt64 := by
  unfold sub minInt64 maxInt64 at *
  omega

theorem sub_of_between {now t : Int} (hlow : minInt64 < now - t)
    (hhigh : now - t ≤ maxInt64) : sub now t = now - t := by
  unfold sub minInt64 maxInt64 at *
  omega

theorem absDuration_minInt64 : absDuration minInt64 = minInt64 := by decide

theorem absDuration_maxInt64 : absDuration maxInt64 = maxInt64 := by decide

theorem absDuration_of_gt {d : Int} (hlow : minInt64 < d) : absDuration d = |d| := by
  unfold absDuration wrapInt64
  split
  · rename_i hneg
    rw [abs_of_neg hneg]
    unfold minInt64 at hlow
    exact Int.bmod_eq_of_le (by omega) (by omega)
  · rename_i hnonneg
    exact (abs_of_nonneg (not_lt.mp hnonneg)).symm

theorem absDuration_sub_le_iff {now t tolerance : Int} (hzero : 0 ≤ tolerance)
    (hmax : tolerance ≤ maxInt64) :
    absDuration (sub now t) ≤ tolerance ↔
      Near now t tolerance ∨ Masked now t tolerance := by
  unfold Near Masked
  rcases le_or_gt (now - t) minInt64 with hlow | hlow
  · rw [sub_of_le hlow, absDuration_minInt64]
    exact iff_of_true (le_trans (by decide) hzero) (.inr (.inl hlow))
  · rcases le_or_gt (now - t) maxInt64 with hhigh | hhigh
    · rw [sub_of_between hlow hhigh, absDuration_of_gt hlow]
      simp [hlow.not_ge, hhigh.not_gt]
    · rw [sub_of_gt hhigh, absDuration_maxInt64]
      have hfar : maxInt64 < |now - t| := lt_of_lt_of_le hhigh (le_abs_self _)
      simp only [hlow.not_ge, hhigh, true_and, false_or, (hmax.trans_lt hfar).not_ge]
      exact ⟨fun h => le_antisymm hmax h, fun h => h.ge⟩

theorem Masked.not_near {now t tolerance : Int} (h : Masked now t tolerance)
    (hmax : tolerance ≤ maxInt64) : ¬ Near now t tolerance := by
  unfold Masked minInt64 maxInt64 at h
  unfold maxInt64 at hmax
  unfold Near
  rw [abs_le]
  omega

theorem exact_iff_not_masked {now t tolerance : Int} (hzero : 0 ≤ tolerance)
    (hmax : tolerance ≤ maxInt64) :
    (absDuration (sub now t) ≤ tolerance ↔ Near now t tolerance) ↔
      ¬ Masked now t tolerance := by
  rw [absDuration_sub_le_iff hzero hmax]
  constructor
  · intro hexact hmasked
    exact hmasked.not_near hmax (hexact.mp (.inr hmasked))
  · intro hmasked
    exact or_iff_left hmasked

end Modularis.Shared.Tolerance
