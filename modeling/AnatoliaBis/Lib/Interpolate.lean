import Mathlib.Algebra.Order.Floor.Ring
import Mathlib.Data.Finset.Max
import Mathlib.Data.Finset.Prod
import Mathlib.Tactic.Linarith
import Mathlib.Tactic.Ring

/-! # Interpolation on a grid

A point between four neighbours of a grid gets a value between theirs, and rounding it
leaves it between any integers that bound them.
-/

namespace Interpolate

section Between

variable {K : Type} [Field K]

/-- From `p` to `q`. -/
def lerp (p q t : K) : K := p + (q - p) * t

section Mean

variable [LinearOrder K] [FloorRing K]

/-- The mean of the four grid points around `(x, y)`, weighted by how near they are. -/
def bilinear (value : Nat → Nat → K) (x y : K) : K :=
  let i := ⌊x⌋₊
  let j := ⌊y⌋₊
  (1 - Int.fract y) * ((1 - Int.fract x) * value i j + Int.fract x * value (i + 1) j) +
    Int.fract y * ((1 - Int.fract x) * value i (j + 1) + Int.fract x * value (i + 1) (j + 1))

/-- First along the rows, then between them. -/
theorem bilinear_eq (value : Nat → Nat → K) (x y : K) :
    bilinear value x y =
      lerp (lerp (value ⌊x⌋₊ ⌊y⌋₊) (value (⌊x⌋₊ + 1) ⌊y⌋₊) (Int.fract x))
        (lerp (value ⌊x⌋₊ (⌊y⌋₊ + 1)) (value (⌊x⌋₊ + 1) (⌊y⌋₊ + 1)) (Int.fract x))
        (Int.fract y) := by
  unfold bilinear lerp
  ring

end Mean

variable [LinearOrder K] [IsStrictOrderedRing K] {lo hi p q t : K}

theorem lerp_mem (hp : p ∈ Set.Icc lo hi) (hq : q ∈ Set.Icc lo hi) (h0 : 0 ≤ t) (h1 : t ≤ 1) :
    lerp p q t ∈ Set.Icc lo hi := by
  have h1' := sub_nonneg.mpr h1
  unfold lerp
  constructor
  · calc lo = lo * (1 - t) + lo * t := by ring
      _ ≤ p * (1 - t) + q * t :=
          add_le_add (mul_le_mul_of_nonneg_right hp.1 h1') (mul_le_mul_of_nonneg_right hq.1 h0)
      _ = p + (q - p) * t := by ring
  · calc p + (q - p) * t = p * (1 - t) + q * t := by ring
      _ ≤ hi * (1 - t) + hi * t :=
          add_le_add (mul_le_mul_of_nonneg_right hp.2 h1') (mul_le_mul_of_nonneg_right hq.2 h0)
      _ = hi := by ring

variable [FloorRing K]

theorem bilinear_mem {value : Nat → Nat → K} {x y : K}
    (h : ∀ i ∈ [⌊x⌋₊, ⌊x⌋₊ + 1], ∀ j ∈ [⌊y⌋₊, ⌊y⌋₊ + 1], value i j ∈ Set.Icc lo hi) :
    bilinear value x y ∈ Set.Icc lo hi := by
  have hrow : ∀ j ∈ [⌊y⌋₊, ⌊y⌋₊ + 1],
      lerp (value ⌊x⌋₊ j) (value (⌊x⌋₊ + 1) j) (Int.fract x) ∈ Set.Icc lo hi := by
    intro j hj
    apply lerp_mem _ _ (Int.fract_nonneg x) (Int.fract_lt_one x).le
    · exact h _ (by simp) j hj
    · exact h _ (by simp) j hj
  rw [bilinear_eq]
  apply lerp_mem _ _ (Int.fract_nonneg y) (Int.fract_lt_one y).le
  · exact hrow _ (by simp)
  · exact hrow _ (by simp)

/-- Two of the four grid points bound the mean. -/
theorem exists_bilinear_between (value : Nat → Nat → K) (x y : K) :
    (∃ i ∈ [⌊x⌋₊, ⌊x⌋₊ + 1], ∃ j ∈ [⌊y⌋₊, ⌊y⌋₊ + 1], value i j ≤ bilinear value x y) ∧
      ∃ i ∈ [⌊x⌋₊, ⌊x⌋₊ + 1], ∃ j ∈ [⌊y⌋₊, ⌊y⌋₊ + 1], bilinear value x y ≤ value i j := by
  let around : Finset (Nat × Nat) :=
    [⌊x⌋₊, ⌊x⌋₊ + 1].toFinset ×ˢ [⌊y⌋₊, ⌊y⌋₊ + 1].toFinset
  have haround : ∀ p, p ∈ around ↔ p.1 ∈ [⌊x⌋₊, ⌊x⌋₊ + 1] ∧ p.2 ∈ [⌊y⌋₊, ⌊y⌋₊ + 1] := by
    intro p
    rw [Finset.mem_product, List.mem_toFinset, List.mem_toFinset]
  have hsome : around.Nonempty :=
    ⟨(⌊x⌋₊, ⌊y⌋₊), (haround _).mpr ⟨List.mem_cons_self, List.mem_cons_self⟩⟩
  rcases around.exists_min_image (fun p => value p.1 p.2) hsome with ⟨low, hlow, hmin⟩
  rcases around.exists_max_image (fun p => value p.1 p.2) hsome with ⟨high, hhigh, hmax⟩
  have hmem : bilinear value x y ∈ Set.Icc (value low.1 low.2) (value high.1 high.2) := by
    apply bilinear_mem
    intro i hi j hj
    have hp := (haround (i, j)).mpr ⟨hi, hj⟩
    exact ⟨hmin (i, j) hp, hmax (i, j) hp⟩
  constructor
  · exact ⟨low.1, ((haround low).mp hlow).1, low.2, ((haround low).mp hlow).2, hmem.1⟩
  · exact ⟨high.1, ((haround high).mp hhigh).1, high.2, ((haround high).mp hhigh).2, hmem.2⟩

/-! ## Rounding -/

def half : K := 1 / 2

/-- To the nearest integer, halves away from zero. -/
def roundAway (x : K) : Int := if 0 ≤ x then ⌊x + half⌋ else ⌈x - half⌉

theorem le_roundAway {n : Int} {x : K} (hx : 0 ≤ x) (h : (n : K) ≤ x) : n ≤ roundAway x := by
  unfold roundAway half
  rw [if_pos hx, Int.le_floor]
  linarith

theorem roundAway_le {n : Int} {x : K} (hx : 0 ≤ x) (h : x ≤ (n : K)) : roundAway x ≤ n := by
  unfold roundAway half
  rw [if_pos hx, ← Int.lt_add_one_iff, Int.floor_lt, Int.cast_add, Int.cast_one]
  linarith

end Between

end Interpolate
