import AnatoliaBis.Lib.Greedy
import AnatoliaBis.Lib.Intervals
import Mathlib.Algebra.Order.Field.Basic
import Mathlib.Tactic.Ring

/-! # Faces and their overlaps

`detection::iou` and `detection::non_max_suppression`. Arithmetic is exact, over any ordered
field, and the boxes may come in any order. `iou` is one exactly for equal boxes, and zero
exactly for boxes without a common inner point.
-/

namespace AnatoliaBis.Biometric

/-- `detection::FaceBox`. -/
structure FaceBox (K : Type) where
  x : K
  y : K
  width : K
  height : K
  score : K
  landmarks : Fin 5 → K × K

section Suppression

variable {K : Type} [Field K] [LinearOrder K]

/-- `detection::iou`: intersection over union. -/
def iou (a b : FaceBox K) : K :=
  let ax2 := a.x + a.width
  let ay2 := a.y + a.height
  let bx2 := b.x + b.width
  let by2 := b.y + b.height
  let ix1 := max a.x b.x
  let iy1 := max a.y b.y
  let ix2 := min ax2 bx2
  let iy2 := min ay2 by2
  let iw := max (ix2 - ix1) 0
  let ih := max (iy2 - iy1) 0
  let intersection := iw * ih
  let union := a.width * a.height + b.width * b.height - intersection
  if union ≤ 0 then 0 else intersection / union

/-- `detection::non_max_suppression`. -/
def nonMaxSuppression (boxes : List (FaceBox K)) (iouThreshold : K) : List (FaceBox K) :=
  Greedy.keep (fun candidate existing => decide (iouThreshold ≤ iou candidate existing)) boxes

/-- Two boxes overlap each other equally. -/
theorem iou_comm (a b : FaceBox K) : iou a b = iou b a := by
  have hunion : ∀ w : K, a.width * a.height + b.width * b.height - w =
      b.width * b.height + a.width * a.height - w := fun w => by ring
  unfold iou
  dsimp only
  rw [max_comm a.x, max_comm a.y, min_comm (a.x + a.width), min_comm (a.y + a.height), hunion]

/-- A list of boxes, and what greedy suppression leaves of it. A box is told from others of
the same values by its place in the list. -/
structure Suppressed (boxes : List (FaceBox K)) (iouThreshold : K) (kept : List (FaceBox K)) :
    Prop where
  subsequence : kept.Sublist boxes
  apart : kept.Pairwise fun a b => iou a b < iouThreshold ∧ iou b a < iouThreshold
  /-- Every other box overlaps a kept one that comes earlier. -/
  covered : ∃ places : List (FaceBox K × Nat), places.Sublist boxes.zipIdx ∧
    places.map Prod.fst = kept ∧ ∀ e ∈ boxes.zipIdx, e ∉ places →
      ∃ k ∈ places, k.2 < e.2 ∧ iouThreshold ≤ iou e.1 k.1
  first : ∀ b, boxes.head? = some b → kept.head? = some b
  again : nonMaxSuppression kept iouThreshold = kept

end Suppression

/-! ## Overlap as a similarity -/

section Overlap

variable {K : Type} [Field K] [LinearOrder K]

namespace FaceBox

def area (a : FaceBox K) : K := a.width * a.height

/-- The area that two boxes share. -/
def shared (a b : FaceBox K) : K :=
  Intervals.overlap a.x a.width b.x b.width * Intervals.overlap a.y a.height b.y b.height

/-- The area that two boxes cover together. -/
def covered (a b : FaceBox K) : K := a.area + b.area - a.shared b

/-- The points strictly inside. -/
def interior (a : FaceBox K) : Set (K × K) :=
  Set.Ioo a.x (a.x + a.width) ×ˢ Set.Ioo a.y (a.y + a.height)

end FaceBox

theorem iou_eq (a b : FaceBox K) :
    iou a b = if a.covered b ≤ 0 then 0 else a.shared b / a.covered b := rfl

variable {a b : FaceBox K}

/-- A box of some area has sides of some length. -/
theorem sides_pos (haw : 0 ≤ a.width) (hah : 0 ≤ a.height) (harea : 0 < a.area) :
    0 < a.width ∧ 0 < a.height := by
  have hne : a.width * a.height ≠ 0 := harea.ne'
  constructor
  · exact haw.lt_of_ne' (left_ne_zero_of_mul hne)
  · exact hah.lt_of_ne' (right_ne_zero_of_mul hne)

variable [IsStrictOrderedRing K]

/-- Two boxes share at most the area of each. -/
theorem shared_mem (haw : 0 ≤ a.width) (hah : 0 ≤ a.height) (hbw : 0 ≤ b.width)
    (hbh : 0 ≤ b.height) : 0 ≤ a.shared b ∧ a.shared b ≤ a.area ∧ a.shared b ≤ b.area := by
  have hx := Intervals.overlap_nonneg a.x a.width b.x b.width
  have hy := Intervals.overlap_nonneg a.y a.height b.y b.height
  unfold FaceBox.shared FaceBox.area
  refine ⟨mul_nonneg hx hy, ?_, ?_⟩
  · have hxa : Intervals.overlap a.x a.width b.x b.width ≤ a.width :=
      Intervals.overlap_le_left haw
    have hya : Intervals.overlap a.y a.height b.y b.height ≤ a.height :=
      Intervals.overlap_le_left hah
    exact mul_le_mul hxa hya hy haw
  · have hxb : Intervals.overlap a.x a.width b.x b.width ≤ b.width :=
      Intervals.overlap_le_right hbw
    have hyb : Intervals.overlap a.y a.height b.y b.height ≤ b.height :=
      Intervals.overlap_le_right hbh
    exact mul_le_mul hxb hyb hy hbw

/-- What is shared is the whole of both boxes only where they are equal. -/
theorem shared_eq_both_iff (haw : 0 < a.width) (hah : 0 < a.height) (hbw : 0 < b.width)
    (hbh : 0 < b.height) :
    (a.shared b = a.area ∧ a.shared b = b.area) ↔
      a.x = b.x ∧ a.y = b.y ∧ a.width = b.width ∧ a.height = b.height := by
  have hx := Intervals.overlap_eq_both_iff (x := a.x) (y := b.x) haw hbw
  have hy := Intervals.overlap_eq_both_iff (x := a.y) (y := b.y) hah hbh
  have hxa : Intervals.overlap a.x a.width b.x b.width ≤ a.width :=
    Intervals.overlap_le_left haw.le
  have hya : Intervals.overlap a.y a.height b.y b.height ≤ a.height :=
    Intervals.overlap_le_left hah.le
  have hxb : Intervals.overlap a.x a.width b.x b.width ≤ b.width :=
    Intervals.overlap_le_right hbw.le
  have hyb : Intervals.overlap a.y a.height b.y b.height ≤ b.height :=
    Intervals.overlap_le_right hbh.le
  unfold FaceBox.shared FaceBox.area
  constructor
  · intro h
    -- a product of two lengths is the whole area only where both are whole sides
    have hne : Intervals.overlap a.x a.width b.x b.width ≠ 0 := by
      intro hzero
      rw [hzero, zero_mul] at h
      exact (mul_pos haw hah).ne h.1
    have hpos : 0 < Intervals.overlap a.x a.width b.x b.width :=
      (Intervals.overlap_nonneg _ _ _ _).lt_of_ne' hne
    have hleft := (mul_eq_mul_iff_eq_and_eq_of_pos hxa hya hpos hah).mp h.1
    have hright := (mul_eq_mul_iff_eq_and_eq_of_pos hxb hyb hpos hbh).mp h.2
    have hxs := hx.mp ⟨hleft.1, hright.1⟩
    have hys := hy.mp ⟨hleft.2, hright.2⟩
    exact ⟨hxs.1, hys.1, hxs.2, hys.2⟩
  · intro h
    have hxs := hx.mpr ⟨h.1, h.2.2.1⟩
    have hys := hy.mpr ⟨h.2.1, h.2.2.2⟩
    constructor
    · rw [hxs.1, hys.1]
    · rw [hxs.2, hys.2]

/-- Nothing is shared exactly where no inner point is. -/
theorem shared_eq_zero_iff : a.shared b = 0 ↔ Disjoint a.interior b.interior := by
  unfold FaceBox.shared FaceBox.interior
  rw [mul_eq_zero, Intervals.overlap_eq_zero_iff, Intervals.overlap_eq_zero_iff, Set.disjoint_prod]

/-- **Overlap is a similarity.** It is symmetric and between zero and one; the division is by
the area covered, which is zero only for two boxes without any; and on boxes of some area
one means equal, and zero apart. -/
theorem iou_similarity (a b : FaceBox K) (haw : 0 ≤ a.width) (hah : 0 ≤ a.height)
    (hbw : 0 ≤ b.width) (hbh : 0 ≤ b.height) :
    iou a b = iou b a ∧ (0 ≤ iou a b ∧ iou a b ≤ 1) ∧
      (0 < a.covered b ∧ iou a b = a.shared b / a.covered b ∨
        a.covered b = 0 ∧ a.area = 0 ∧ b.area = 0 ∧ iou a b = 0) ∧
      (0 < a.area → 0 < b.area →
        (iou a b = 1 ↔ a.x = b.x ∧ a.y = b.y ∧ a.width = b.width ∧ a.height = b.height) ∧
        (iou a b = 0 ↔ Disjoint a.interior b.interior)) := by
  obtain ⟨hnonneg, hsa, hsb⟩ := shared_mem haw hah hbw hbh
  have harea : 0 ≤ a.area := mul_nonneg haw hah
  have hbrea : 0 ≤ b.area := mul_nonneg hbw hbh
  have hcover : 0 ≤ a.covered b := by
    unfold FaceBox.covered
    linarith
  -- the division, where there is one
  have hdiv : 0 < a.covered b → iou a b = Intervals.share (a.shared b) a.area b.area := by
    intro hpos
    rw [iou_eq, if_neg hpos.not_ge]
    rfl
  have hnone : a.covered b = 0 → iou a b = 0 := by
    intro hzero
    rw [iou_eq, if_pos hzero.le]
  refine ⟨iou_comm a b, ?_, ?_, ?_⟩
  · rcases hcover.lt_or_eq with hpos | hzero
    · rw [hdiv hpos]
      exact Intervals.share_mem hnonneg hsa hsb hpos
    · rw [hnone hzero.symm]
      exact ⟨le_rfl, zero_le_one⟩
  · rcases hcover.lt_or_eq with hpos | hzero
    · exact Or.inl ⟨hpos, hdiv hpos⟩
    · right
      have hsum : a.area + b.area - a.shared b = 0 := hzero.symm
      refine ⟨hzero.symm, ?_, ?_, hnone hzero.symm⟩
      · linarith
      · linarith
  · intro hpa hpb
    have hpos : 0 < a.covered b := by
      unfold FaceBox.covered
      linarith
    obtain ⟨hsaw, hsah⟩ := sides_pos haw hah hpa
    obtain ⟨hsbw, hsbh⟩ := sides_pos hbw hbh hpb
    rw [hdiv hpos]
    constructor
    · rw [Intervals.share_eq_one_iff hsa hsb hpos]
      exact shared_eq_both_iff hsaw hsah hsbw hsbh
    · rw [Intervals.share_eq_zero_iff hpos]
      exact shared_eq_zero_iff

/-- A unit square. -/
def sampleBox (x : Rat) : FaceBox Rat := ⟨x, 0, 1, 1, 0, fun _ => (0, 0)⟩

/-- Two squares that touch along a side. -/
theorem iou_similarity_sample :
    iou (sampleBox 0) (sampleBox 1) = iou (sampleBox 1) (sampleBox 0) ∧
      (iou (sampleBox 0) (sampleBox 1) = 0 ↔
        Disjoint (sampleBox 0).interior (sampleBox 1).interior) := by
  have hside : (0 : Rat) ≤ 1 := by norm_num
  have harea : ∀ x, 0 < (sampleBox x).area := by
    intro x
    norm_num [FaceBox.area, sampleBox]
  have h := iou_similarity (sampleBox 0) (sampleBox 1) hside hside hside hside
  exact ⟨h.1, (h.2.2.2 (harea 0) (harea 1)).2⟩

end Overlap

end AnatoliaBis.Biometric
