import Mathlib.Algebra.Order.Field.Basic
import Mathlib.Order.CompletePartialOrder
import Mathlib.Order.Interval.Set.Disjoint
import Mathlib.Tactic.Linarith

/-! # What two intervals share

Intervals of an ordered field, given by their start and their length, and the share of two
sizes that they have in common.
-/

namespace Intervals

variable {K : Type} [Field K] [LinearOrder K]

/-- The length of the intersection of `[x, x + w]` and `[y, y + v]`. -/
def overlap (x w y v : K) : K := max (min (x + w) (y + v) - max x y) 0

theorem overlap_nonneg (x w y v : K) : 0 ≤ overlap x w y v := le_max_right _ _

theorem overlap_comm (x w y v : K) : overlap x w y v = overlap y v x w := by
  unfold overlap
  rw [min_comm, max_comm x y]

/-- A common part `i` of the sizes `a` and `b`, relative to what they cover together. -/
def share (i a b : K) : K := i / (a + b - i)

theorem share_eq_zero_iff {i a b : K} (hpos : 0 < a + b - i) : share i a b = 0 ↔ i = 0 := by
  unfold share
  rw [div_eq_zero_iff]
  exact or_iff_left hpos.ne'

section Ordered

variable [IsStrictOrderedRing K] {x w y v : K}

theorem overlap_le_left (hw : 0 ≤ w) : overlap x w y v ≤ w := by
  have hend : min (x + w) (y + v) ≤ x + w := min_le_left _ _
  have hstart : x ≤ max x y := le_max_left _ _
  unfold overlap
  apply max_le
  · linarith
  · exact hw

theorem overlap_le_right (hv : 0 ≤ v) : overlap x w y v ≤ v := by
  rw [overlap_comm]
  exact overlap_le_left hv

/-- Nothing is shared exactly where the open intervals are disjoint. -/
theorem overlap_eq_zero_iff :
    overlap x w y v = 0 ↔ Disjoint (Set.Ioo x (x + w)) (Set.Ioo y (y + v)) := by
  unfold overlap
  rw [max_eq_right_iff, sub_nonpos, Set.Ioo_disjoint_Ioo]

/-- One interval is shared whole only where it lies in the other. -/
theorem overlap_eq_left (hw : 0 < w) (h : overlap x w y v = w) : y ≤ x ∧ x + w ≤ y + v := by
  have hlen : min (x + w) (y + v) - max x y = w := by
    unfold overlap at h
    rcases max_choice (min (x + w) (y + v) - max x y) 0 with hmax | hmax
    · rw [hmax] at h
      exact h
    · -- an empty overlap has no length
      rw [hmax] at h
      exact absurd h hw.ne
  have hend : min (x + w) (y + v) ≤ x + w := min_le_left _ _
  have hend' : min (x + w) (y + v) ≤ y + v := min_le_right _ _
  have hstart : x ≤ max x y := le_max_left _ _
  have hstart' : y ≤ max x y := le_max_right _ _
  constructor
  · linarith
  · linarith

theorem overlap_eq_both_iff (hw : 0 < w) (hv : 0 < v) :
    (overlap x w y v = w ∧ overlap x w y v = v) ↔ x = y ∧ w = v := by
  constructor
  · intro h
    have hleft := overlap_eq_left hw h.1
    have hright := overlap_eq_left hv ((overlap_comm y v x w).trans h.2)
    have hstart : x = y := le_antisymm hright.1 hleft.1
    exact ⟨hstart, h.1.symm.trans h.2⟩
  · intro h
    have hself : overlap y v y v = v := by
      unfold overlap
      rw [min_self, max_self, add_sub_cancel_left, max_eq_left hv.le]
    rw [h.1, h.2]
    exact ⟨hself, hself⟩

/-! ## The share of two sizes -/

variable {i a b : K}

theorem share_mem (hi : 0 ≤ i) (ha : i ≤ a) (hb : i ≤ b) (hpos : 0 < a + b - i) :
    0 ≤ share i a b ∧ share i a b ≤ 1 := by
  constructor
  · exact div_nonneg hi hpos.le
  · have hle : i ≤ a + b - i := by linarith
    exact (div_le_one hpos).mpr hle

theorem share_eq_one_iff (ha : i ≤ a) (hb : i ≤ b) (hpos : 0 < a + b - i) :
    share i a b = 1 ↔ i = a ∧ i = b := by
  unfold share
  rw [div_eq_one_iff_eq hpos.ne']
  constructor
  · intro h
    constructor
    · linarith
    · linarith
  · intro h
    linarith [h.1, h.2]

end Ordered

end Intervals
