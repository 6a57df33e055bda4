import Mathlib.Algebra.BigOperators.Field
import Mathlib.Algebra.Order.BigOperators.Ring.Finset
import Mathlib.Algebra.Order.Field.Basic
import Mathlib.Data.Fintype.BigOperators
import Mathlib.Tactic.FieldSimp
import Mathlib.Tactic.LinearCombination
import Mathlib.Tactic.Positivity

/-! # Similarities of least squares

The maps `z ↦ wz + t` of the plane, with `w` a pair `(p, q)` that multiplies like a complex
number. The sum of the squared distances between the images of points and other points is a
constant and a sum of squares in what is to be chosen, so the minimum can be read off.
-/

namespace LeastSquares

variable {ι K : Type} [Fintype ι] [Field K]

/-- A multiplication and a translation. -/
@[ext]
structure Similarity (K : Type) where
  p : K
  q : K
  tx : K
  ty : K

def Similarity.apply (T : Similarity K) (z : K × K) : K × K :=
  (T.p * z.1 - T.q * z.2 + T.tx, T.q * z.1 + T.p * z.2 + T.ty)

/-- The sum of the squared distances. -/
def cost (f : K × K → K × K) (src dst : ι → K × K) : K :=
  ∑ i, (((f (src i)).1 - (dst i).1) ^ 2 + ((f (src i)).2 - (dst i).2) ^ 2)

/-! ## Centred coordinates -/

def mean (x : ι → K) : K := (∑ i, x i) / Fintype.card ι

def centred (x : ι → K) (i : ι) : K := x i - mean x

theorem sum_centred (h : (Fintype.card ι : K) ≠ 0) (x : ι → K) : ∑ i, centred x i = 0 := by
  unfold centred mean
  rw [Finset.sum_sub_distrib, Finset.sum_const, Finset.card_univ, nsmul_eq_mul,
    mul_div_cancel₀ _ h, sub_self]

/-- The squared distances of the points to their mean. -/
def spread (src : ι → K × K) : K :=
  ∑ i, (centred (fun i => (src i).1) i * centred (fun i => (src i).1) i +
    centred (fun i => (src i).2) i * centred (fun i => (src i).2) i)

def dotSum (src dst : ι → K × K) : K :=
  ∑ i, (centred (fun i => (dst i).1) i * centred (fun i => (src i).1) i +
    centred (fun i => (dst i).2) i * centred (fun i => (src i).2) i)

def crossSum (src dst : ι → K × K) : K :=
  ∑ i, (centred (fun i => (dst i).2) i * centred (fun i => (src i).1) i -
    centred (fun i => (dst i).1) i * centred (fun i => (src i).2) i)

/-- The translation that is left when the means are mapped to each other. -/
def Similarity.gap (T : Similarity K) (src dst : ι → K × K) : K × K :=
  (T.p * mean (fun i => (src i).1) - T.q * mean (fun i => (src i).2) + T.tx -
      mean fun i => (dst i).1,
    T.q * mean (fun i => (src i).1) + T.p * mean (fun i => (src i).2) + T.ty -
      mean fun i => (dst i).2)

/-- The cost in the coefficients. -/
theorem cost_expand (h : (Fintype.card ι : K) ≠ 0) (T : Similarity K) (src dst : ι → K × K) :
    cost T.apply src dst =
      (T.p ^ 2 + T.q ^ 2) * spread src - 2 * (T.p * dotSum src dst + T.q * crossSum src dst) +
        spread dst + Fintype.card ι * ((T.gap src dst).1 ^ 2 + (T.gap src dst).2 ^ 2) := by
  have hterm : ∀ i, ((T.apply (src i)).1 - (dst i).1) ^ 2 + ((T.apply (src i)).2 - (dst i).2) ^ 2 =
      (T.p ^ 2 + T.q ^ 2) * (centred (fun i => (src i).1) i * centred (fun i => (src i).1) i +
        centred (fun i => (src i).2) i * centred (fun i => (src i).2) i) -
      2 * T.p * (centred (fun i => (dst i).1) i * centred (fun i => (src i).1) i +
        centred (fun i => (dst i).2) i * centred (fun i => (src i).2) i) -
      2 * T.q * (centred (fun i => (dst i).2) i * centred (fun i => (src i).1) i -
        centred (fun i => (dst i).1) i * centred (fun i => (src i).2) i) +
      (centred (fun i => (dst i).1) i * centred (fun i => (dst i).1) i +
        centred (fun i => (dst i).2) i * centred (fun i => (dst i).2) i) +
      2 * ((T.gap src dst).1 * T.p + (T.gap src dst).2 * T.q) * centred (fun i => (src i).1) i +
      2 * ((T.gap src dst).2 * T.p - (T.gap src dst).1 * T.q) * centred (fun i => (src i).2) i -
      2 * (T.gap src dst).1 * centred (fun i => (dst i).1) i -
      2 * (T.gap src dst).2 * centred (fun i => (dst i).2) i +
      ((T.gap src dst).1 ^ 2 + (T.gap src dst).2 ^ 2) := by
    intro i
    simp only [Similarity.apply, Similarity.gap, centred]
    ring
  unfold cost
  rw [Finset.sum_congr rfl fun i _ => hterm i]
  simp only [Finset.sum_add_distrib, Finset.sum_sub_distrib, ← Finset.mul_sum, sum_centred h,
    Finset.sum_const, Finset.card_univ, nsmul_eq_mul]
  simp only [spread, dotSum, crossSum, Finset.sum_add_distrib, Finset.sum_sub_distrib]
  ring

/-! ## The minimum -/

/-- The multiplication is a quotient, and the translation maps the means to each other. -/
def best (src dst : ι → K × K) : Similarity K where
  p := dotSum src dst / spread src
  q := crossSum src dst / spread src
  tx := mean (fun i => (dst i).1) - (dotSum src dst / spread src * mean (fun i => (src i).1) -
    crossSum src dst / spread src * mean fun i => (src i).2)
  ty := mean (fun i => (dst i).2) - (crossSum src dst / spread src * mean (fun i => (src i).1) +
    dotSum src dst / spread src * mean fun i => (src i).2)

theorem gap_best (src dst : ι → K × K) : (best src dst).gap src dst = (0, 0) := by
  unfold Similarity.gap best
  ext
  · dsimp only
    ring
  · dsimp only
    ring

/-- What any other similarity costs more. -/
theorem cost_eq (h : (Fintype.card ι : K) ≠ 0) {src : ι → K × K} (hsrc : spread src ≠ 0)
    (T : Similarity K) (dst : ι → K × K) :
    cost T.apply src dst = cost (best src dst).apply src dst +
      (spread src * ((T.p - (best src dst).p) ^ 2 + (T.q - (best src dst).q) ^ 2) +
        Fintype.card ι * ((T.gap src dst).1 ^ 2 + (T.gap src dst).2 ^ 2)) := by
  have hp : (best src dst).p * spread src = dotSum src dst := div_mul_cancel₀ _ hsrc
  have hq : (best src dst).q * spread src = crossSum src dst := div_mul_cancel₀ _ hsrc
  rw [cost_expand h, cost_expand h, gap_best, ← hp, ← hq]
  ring

section Ordered

variable [LinearOrder K] [IsStrictOrderedRing K]

theorem cost_nonneg (f : K × K → K × K) (src dst : ι → K × K) : 0 ≤ cost f src dst := by
  apply Finset.sum_nonneg
  intro i _
  positivity

variable [Nonempty ι] {src : ι → K × K}

theorem card_pos : (0 : K) < Fintype.card ι := Nat.cast_pos.mpr Fintype.card_pos

theorem cost_best_le (hsrc : 0 < spread src) (T : Similarity K) (dst : ι → K × K) :
    cost (best src dst).apply src dst ≤ cost T.apply src dst := by
  rw [cost_eq (card_pos (ι := ι)).ne' hsrc.ne' T dst]
  apply le_add_of_nonneg_right
  have hcard := (card_pos (ι := ι) (K := K)).le
  have hspread := hsrc.le
  positivity

/-- No other similarity is as good. -/
theorem eq_best_of_cost_le (hsrc : 0 < spread src) {T : Similarity K} {dst : ι → K × K}
    (h : cost T.apply src dst ≤ cost (best src dst).apply src dst) : T = best src dst := by
  have hcard := card_pos (ι := ι) (K := K)
  rw [cost_eq hcard.ne' hsrc.ne' T dst] at h
  have hfactor : spread src * ((T.p - (best src dst).p) ^ 2 + (T.q - (best src dst).q) ^ 2) = 0 ∧
      Fintype.card ι * ((T.gap src dst).1 ^ 2 + (T.gap src dst).2 ^ 2) = 0 := by
    apply (add_eq_zero_iff_of_nonneg (by positivity) (by positivity)).mp
    apply le_antisymm
    · exact (add_le_iff_nonpos_right _).mp h
    · positivity
  simp only [sq, mul_eq_zero, hsrc.ne', hcard.ne', false_or, mul_self_add_mul_self_eq_zero]
    at hfactor
  rcases hfactor with ⟨hlinear, hgap⟩
  have hp : T.p = (best src dst).p := sub_eq_zero.mp hlinear.1
  have hq : T.q = (best src dst).q := sub_eq_zero.mp hlinear.2
  have hgap' := gap_best src dst
  ext
  · exact hp
  · exact hq
  · have hx := hgap.1.trans (congrArg Prod.fst hgap').symm
    simp only [Similarity.gap, hp, hq] at hx
    linear_combination hx
  · have hy := hgap.2.trans (congrArg Prod.snd hgap').symm
    simp only [Similarity.gap, hp, hq] at hy
    linear_combination hy

/-- Points that a similarity maps to the others determine it. -/
theorem eq_best_of_image (hsrc : 0 < spread src) {T : Similarity K} {dst : ι → K × K}
    (h : ∀ i, T.apply (src i) = dst i) : T = best src dst := by
  apply eq_best_of_cost_le hsrc
  have hzero : cost T.apply src dst = 0 := by
    apply Finset.sum_eq_zero
    intro i _
    rw [h i]
    ring
  rw [hzero]
  exact cost_nonneg _ src dst

end Ordered

end LeastSquares
