import AnatoliaBis.Lib.LeastSquares
import Mathlib.Analysis.SpecialFunctions.Complex.Arg

/-! # Face alignment

`biometric::alignment::similarity_transform` in exact arithmetic. The angle and the scale
are read off two sums, and together they are the quotients of least squares.
-/

namespace AnatoliaBis.Biometric

open LeastSquares

/-- `AffineTransform`: `[a b tx; c d ty]`. -/
@[ext]
structure AffineTransform (K : Type) where
  a : K
  b : K
  c : K
  d : K
  tx : K
  ty : K
  deriving Repr, DecidableEq

def AffineTransform.apply {K : Type} [Field K] (T : AffineTransform K) (z : K × K) : K × K :=
  (T.a * z.1 + T.b * z.2 + T.tx, T.c * z.1 + T.d * z.2 + T.ty)

noncomputable section

/-- `REFERENCE_LANDMARKS`. -/
def referenceLandmarks : Fin 5 → ℝ × ℝ
  | 0 => (38.2946, 51.6963)
  | 1 => (73.5318, 51.5014)
  | 2 => (56.0252, 71.7366)
  | 3 => (41.5493, 92.3655)
  | 4 => (70.7299, 92.2041)

/-- `f64::atan2`. -/
def atan2 (y x : ℝ) : ℝ := (⟨x, y⟩ : ℂ).arg

/-- The mean of one coordinate. -/
def meanOf (x : Fin 5 → ℝ) : ℝ := (∑ i, x i) / 5

/-- `src_var`. -/
def srcVar (src : Fin 5 → ℝ × ℝ) : ℝ :=
  let srcMeanX := meanOf fun i => (src i).1
  let srcMeanY := meanOf fun i => (src i).2
  ∑ i, (((src i).1 - srcMeanX) * ((src i).1 - srcMeanX) +
    ((src i).2 - srcMeanY) * ((src i).2 - srcMeanY))

/-- `similarity_transform`; the three sums are accumulated in one loop. -/
def similarityTransform (src dst : Fin 5 → ℝ × ℝ) : AffineTransform ℝ :=
  let srcMeanX := meanOf fun i => (src i).1
  let srcMeanY := meanOf fun i => (src i).2
  let dstMeanX := meanOf fun i => (dst i).1
  let dstMeanY := meanOf fun i => (dst i).2
  let a := ∑ i, (((dst i).1 - dstMeanX) * ((src i).1 - srcMeanX) +
    ((dst i).2 - dstMeanY) * ((src i).2 - srcMeanY))
  let b := ∑ i, (((dst i).2 - dstMeanY) * ((src i).1 - srcMeanX) -
    ((dst i).1 - dstMeanX) * ((src i).2 - srcMeanY))
  let theta := atan2 b a
  let scale := if srcVar src > 1e-12 then √(a * a + b * b) / srcVar src else 1
  let r00 := Real.cos theta
  let r01 := -Real.sin theta
  let r10 := Real.sin theta
  let r11 := Real.cos theta
  { a := scale * r00
    b := scale * r01
    c := scale * r10
    d := scale * r11
    tx := dstMeanX - scale * (r00 * srcMeanX + r01 * srcMeanY)
    ty := dstMeanY - scale * (r10 * srcMeanX + r11 * srcMeanY) }

/-! ## What it is to do -/

/-- A rotation, a uniform scale and a translation. -/
def AffineTransform.IsSimilarity (T : AffineTransform ℝ) : Prop :=
  ∃ scale theta, 0 ≤ scale ∧ T.a = scale * Real.cos theta ∧ T.b = -(scale * Real.sin theta) ∧
    T.c = scale * Real.sin theta ∧ T.d = scale * Real.cos theta

/-- The sum of the squared distances that the transform leaves. -/
def squaredError (T : AffineTransform ℝ) (src dst : Fin 5 → ℝ × ℝ) : ℝ := cost T.apply src dst

/-- A similarity as a matrix. -/
def affineOf (S : Similarity ℝ) : AffineTransform ℝ := ⟨S.p, -S.q, S.q, S.p, S.tx, S.ty⟩

theorem apply_affineOf (S : Similarity ℝ) : (affineOf S).apply = S.apply := by
  funext z
  unfold AffineTransform.apply affineOf Similarity.apply
  rw [neg_mul, ← sub_eq_add_neg]

theorem AffineTransform.IsSimilarity.exists_affineOf {T : AffineTransform ℝ} (h : T.IsSimilarity) :
    ∃ S, T = affineOf S := by
  rcases h with ⟨scale, theta, -, ha, hb, hc, hd⟩
  refine ⟨⟨T.a, T.c, T.tx, T.ty⟩, ?_⟩
  unfold affineOf
  ext
  · rfl
  · exact hb.trans (congrArg Neg.neg hc).symm
  · rfl
  · exact hd.trans ha.symm
  · rfl
  · rfl

/-! ## The two sums -/

theorem norm_mul_cos_atan2 (a b : ℝ) : √(a * a + b * b) * Real.cos (atan2 b a) = a := by
  have hnorm := Complex.norm_mul_cos_arg ⟨a, b⟩
  rw [Complex.norm_def, Complex.normSq_apply] at hnorm
  exact hnorm

theorem norm_mul_sin_atan2 (a b : ℝ) : √(a * a + b * b) * Real.sin (atan2 b a) = b := by
  have hnorm := Complex.norm_mul_sin_arg ⟨a, b⟩
  rw [Complex.norm_def, Complex.normSq_apply] at hnorm
  exact hnorm

variable {src dst : Fin 5 → ℝ × ℝ}

theorem meanOf_eq (x : Fin 5 → ℝ) : meanOf x = mean x := by
  unfold meanOf mean
  rw [Fintype.card_fin, Nat.cast_ofNat]

theorem srcVar_eq (src : Fin 5 → ℝ × ℝ) : srcVar src = spread src := by
  unfold srcVar spread centred
  simp only [meanOf_eq]

/-- The transform is the similarity of least squares. -/
theorem similarityTransform_eq (h : srcVar src > 1e-12) (dst : Fin 5 → ℝ × ℝ) :
    similarityTransform src dst = affineOf (best src dst) := by
  have hcos : ∀ a b v : ℝ, √(a * a + b * b) / v * Real.cos (atan2 b a) = a / v := by
    intro a b v
    rw [div_mul_eq_mul_div, norm_mul_cos_atan2]
  have hsin : ∀ a b v : ℝ, √(a * a + b * b) / v * Real.sin (atan2 b a) = b / v := by
    intro a b v
    rw [div_mul_eq_mul_div, norm_mul_sin_atan2]
  rw [srcVar_eq] at h
  unfold similarityTransform affineOf best dotSum crossSum centred
  simp only [meanOf_eq, srcVar_eq, if_pos h]
  ext
  · exact hcos _ _ _
  · exact (mul_neg _ _).trans (congrArg Neg.neg (hsin _ _ _))
  · exact hsin _ _ _
  · exact hcos _ _ _
  · dsimp only
    rw [mul_add, ← mul_assoc, ← mul_assoc, mul_neg, hcos, hsin, neg_mul, ← sub_eq_add_neg]
  · dsimp only
    rw [mul_add, ← mul_assoc, ← mul_assoc, hcos, hsin]

theorem isSimilarity_similarityTransform (src dst : Fin 5 → ℝ × ℝ) :
    (similarityTransform src dst).IsSimilarity := by
  unfold similarityTransform
  refine ⟨_, _, ?_, rfl, mul_neg _ _, rfl, rfl⟩
  split_ifs with hvar
  · apply div_nonneg (Real.sqrt_nonneg _)
    exact (lt_trans (by norm_num) hvar).le
  · exact zero_le_one

/-- **Least squares.** Where the landmarks are apart the transform is a similarity, no
similarity leaves a smaller error, and it is the one that maps the landmarks to the points
if there is one. -/
theorem similarity_transform_least_squares (src dst : Fin 5 → ℝ × ℝ) (h : srcVar src > 1e-12) :
    (similarityTransform src dst).IsSimilarity ∧
      (∀ T : AffineTransform ℝ, T.IsSimilarity →
        squaredError (similarityTransform src dst) src dst ≤ squaredError T src dst) ∧
      ∀ T : AffineTransform ℝ, T.IsSimilarity → (∀ i, T.apply (src i) = dst i) →
        similarityTransform src dst = T := by
  have hspread : 0 < spread src := by
    rw [← srcVar_eq]
    exact lt_trans (by norm_num) h
  refine ⟨isSimilarity_similarityTransform src dst, fun T hT => ?_, fun T hT hmaps => ?_⟩
  · rcases hT.exists_affineOf with ⟨S, rfl⟩
    unfold squaredError
    rw [similarityTransform_eq h, apply_affineOf, apply_affineOf]
    exact cost_best_le hspread S dst
  · rcases hT.exists_affineOf with ⟨S, rfl⟩
    rw [apply_affineOf] at hmaps
    rw [similarityTransform_eq h, eq_best_of_image hspread hmaps]

theorem srcVar_referenceLandmarks : srcVar referenceLandmarks > 1e-12 := by
  unfold srcVar meanOf
  norm_num [Fin.sum_univ_five, referenceLandmarks]

/-- The reference landmarks, moved. -/
theorem similarity_transform_least_squares_sample :
    (∀ T : AffineTransform ℝ, T.IsSimilarity →
      squaredError (similarityTransform referenceLandmarks fun i =>
          (10 + (referenceLandmarks i).1, (referenceLandmarks i).2)) referenceLandmarks
          (fun i => (10 + (referenceLandmarks i).1, (referenceLandmarks i).2)) ≤
        squaredError T referenceLandmarks
          fun i => (10 + (referenceLandmarks i).1, (referenceLandmarks i).2)) ∧
      similarityTransform referenceLandmarks (fun i =>
        (10 + (referenceLandmarks i).1, (referenceLandmarks i).2)) = ⟨1, 0, 0, 1, 10, 0⟩ := by
  rcases similarity_transform_least_squares referenceLandmarks
    (fun i => (10 + (referenceLandmarks i).1, (referenceLandmarks i).2))
    srcVar_referenceLandmarks with ⟨-, hleast, hmaps⟩
  refine ⟨hleast, hmaps ⟨1, 0, 0, 1, 10, 0⟩ ⟨1, 0, ?_⟩ fun i => ?_⟩
  · simp
  · unfold AffineTransform.apply
    ext
    · dsimp only
      ring
    · dsimp only
      ring

end

end AnatoliaBis.Biometric
