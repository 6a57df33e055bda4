import Mathlib.Algebra.BigOperators.Intervals
import Mathlib.Algebra.BigOperators.Ring.Finset
import Mathlib.Algebra.Order.BigOperators.Ring.Finset
import Mathlib.Algebra.Order.Field.Basic
import Mathlib.Tactic.Linarith
import Mathlib.Tactic.Ring

/-! # The discrete Laplacian of a grid

Each point of a line, or of a grid, against its neighbours, where the border is continued by
itself. Nothing crosses the border, so summation by parts has no border terms: the responses
sum to zero, and they all vanish only for a constant.
-/

namespace Stencil

open Finset

section Line

variable {K : Type} [CommRing K]

/-- What the neighbours of the point `i` of a line have more than it. -/
def flow (n : Nat) (f : Nat → K) (i : Nat) : K :=
  (f (i - 1) - f i) + (f (min (i + 1) (n - 1)) - f i)

/-- Summation by parts along a line. -/
theorem sum_mul_flow (n : Nat) (g f : Nat → K) :
    ∑ i ∈ range n, g i * flow n f i =
      -∑ i ∈ range (n - 1), (g (i + 1) - g i) * (f (i + 1) - f i) := by
  cases n with
  | zero => simp
  | succ n =>
      have hbefore : ∑ i ∈ range (n + 1), g i * (f (i - 1) - f i) =
          ∑ i ∈ range n, g (i + 1) * (f i - f (i + 1)) := by
        rw [sum_range_succ']
        simp
      have hafter : ∑ i ∈ range (n + 1), g i * (f (min (i + 1) (n + 1 - 1)) - f i) =
          ∑ i ∈ range n, g i * (f (i + 1) - f i) := by
        have hlast : min (n + 1) (n + 1 - 1) = n := by omega
        rw [sum_range_succ, hlast, sub_self, mul_zero, add_zero]
        apply sum_congr rfl
        intro i hi
        have hinner : min (i + 1) (n + 1 - 1) = i + 1 := by
          have hlt := mem_range.mp hi
          omega
        rw [hinner]
      calc ∑ i ∈ range (n + 1), g i * flow (n + 1) f i
          = ∑ i ∈ range (n + 1), g i * (f (i - 1) - f i) +
              ∑ i ∈ range (n + 1), g i * (f (min (i + 1) (n + 1 - 1)) - f i) := by
            rw [← sum_add_distrib]
            apply sum_congr rfl
            intro i _
            unfold flow
            ring
        _ = ∑ i ∈ range n, (g (i + 1) * (f i - f (i + 1)) + g i * (f (i + 1) - f i)) := by
            rw [hbefore, hafter, sum_add_distrib]
        _ = -∑ i ∈ range n, (g (i + 1) - g i) * (f (i + 1) - f i) := by
            rw [← sum_neg_distrib]
            apply sum_congr rfl
            intro i _
            ring

/-- A line may be read from its other end. -/
theorem flow_reflect {n i : Nat} (f : Nat → K) (hi : i < n) :
    flow n (fun j => f (n - 1 - j)) i = flow n f (n - 1 - i) := by
  have hbefore : n - 1 - (i - 1) = min (n - 1 - i + 1) (n - 1) := by omega
  have hafter : n - 1 - min (i + 1) (n - 1) = n - 1 - i - 1 := by omega
  unfold flow
  dsimp only
  rw [hbefore, hafter]
  ring

theorem flow_congr {n i : Nat} {f g : Nat → K} (hfg : ∀ j < n, f j = g j) (hi : i < n) :
    flow n f i = flow n g i := by
  unfold flow
  rw [hfg i hi, hfg (i - 1) (by omega), hfg (min (i + 1) (n - 1)) (by omega)]

theorem flow_add (n : Nat) (f : Nat → K) (k c : K) (i : Nat) :
    flow n (fun j => k * f j + c) i = k * flow n f i := by
  unfold flow
  ring

end Line

section Grid

variable {K : Type} [CommRing K]

/-- What the four neighbours of a point have more than it. -/
def laplacian (w h : Nat) (v : Nat → Nat → K) (x y : Nat) : K :=
  flow w (fun x => v x y) x + flow h (v x) y

/-- Summation by parts over the grid. -/
theorem sum_mul_laplacian (w h : Nat) (g v : Nat → Nat → K) :
    ∑ y ∈ range h, ∑ x ∈ range w, g x y * laplacian w h v x y =
      -(∑ y ∈ range h, ∑ x ∈ range (w - 1),
          (g (x + 1) y - g x y) * (v (x + 1) y - v x y) +
        ∑ x ∈ range w, ∑ y ∈ range (h - 1),
          (g x (y + 1) - g x y) * (v x (y + 1) - v x y)) := by
  have hrows : ∑ y ∈ range h, ∑ x ∈ range w, g x y * flow w (fun x => v x y) x =
      ∑ y ∈ range h, -∑ x ∈ range (w - 1), (g (x + 1) y - g x y) * (v (x + 1) y - v x y) :=
    sum_congr rfl fun y _ => sum_mul_flow w (fun x => g x y) fun x => v x y
  have hcolumns : ∑ y ∈ range h, ∑ x ∈ range w, g x y * flow h (v x) y =
      ∑ x ∈ range w, -∑ y ∈ range (h - 1), (g x (y + 1) - g x y) * (v x (y + 1) - v x y) := by
    rw [sum_comm]
    exact sum_congr rfl fun x _ => sum_mul_flow h (g x) (v x)
  calc ∑ y ∈ range h, ∑ x ∈ range w, g x y * laplacian w h v x y
      = ∑ y ∈ range h, ∑ x ∈ range w, g x y * flow w (fun x => v x y) x +
          ∑ y ∈ range h, ∑ x ∈ range w, g x y * flow h (v x) y := by
        rw [← sum_add_distrib]
        apply sum_congr rfl
        intro y _
        rw [← sum_add_distrib]
        apply sum_congr rfl
        intro x _
        exact mul_add _ _ _
    _ = _ := by
        rw [hrows, hcolumns, sum_neg_distrib, sum_neg_distrib, neg_add]

/-- The responses sum to zero. -/
theorem sum_laplacian (w h : Nat) (v : Nat → Nat → K) :
    ∑ y ∈ range h, ∑ x ∈ range w, laplacian w h v x y = 0 := by
  have hparts := sum_mul_laplacian w h (fun _ _ => 1) v
  simpa using hparts

theorem laplacian_add (w h : Nat) (v : Nat → Nat → K) (k c : K) (x y : Nat) :
    laplacian w h (fun x y => k * v x y + c) x y = k * laplacian w h v x y := by
  unfold laplacian
  rw [flow_add, flow_add, mul_add]

/-- A grid may be turned upside down. -/
theorem laplacian_reflect {w h x y : Nat} (v : Nat → Nat → K) (hx : x < w) (hy : y < h) :
    laplacian w h (fun x y => v (w - 1 - x) (h - 1 - y)) x y =
      laplacian w h v (w - 1 - x) (h - 1 - y) := by
  have hrow := flow_reflect (fun x => v x (h - 1 - y)) hx
  have hcolumn := flow_reflect (v (w - 1 - x)) hy
  unfold laplacian
  rw [← hrow, ← hcolumn]

theorem laplacian_congr {w h x y : Nat} {v v' : Nat → Nat → K}
    (hv : ∀ x < w, ∀ y < h, v x y = v' x y) (hx : x < w) (hy : y < h) :
    laplacian w h v x y = laplacian w h v' x y := by
  unfold laplacian
  rw [flow_congr (fun x hx => hv x hx y hy) hx, flow_congr (fun y hy => hv x hx y hy) hy]

theorem laplacian_eq_zero_of_constant {w h : Nat} {v : Nat → Nat → K} {c : K}
    (hv : ∀ x < w, ∀ y < h, v x y = c) {x y : Nat} (hx : x < w) (hy : y < h) :
    laplacian w h v x y = 0 := by
  unfold laplacian flow
  dsimp only
  rw [hv x hx y hy, hv (x - 1) (by omega) y hy, hv (min (x + 1) (w - 1)) (by omega) y hy,
    hv x hx (y - 1) (by omega), hv x hx (min (y + 1) (h - 1)) (by omega)]
  ring

variable [LinearOrder K] [IsStrictOrderedRing K]

/-- **Only a constant has no response.** -/
theorem constant_of_laplacian_eq_zero {w h : Nat} {v : Nat → Nat → K}
    (hzero : ∀ x < w, ∀ y < h, laplacian w h v x y = 0) :
    ∀ x < w, ∀ y < h, v x y = v 0 0 := by
  have hparts := sum_mul_laplacian w h v v
  have hsum : ∑ y ∈ range h, ∑ x ∈ range w, v x y * laplacian w h v x y = 0 := by
    apply sum_eq_zero
    intro y hy
    apply sum_eq_zero
    intro x hx
    rw [hzero x (mem_range.mp hx) y (mem_range.mp hy), mul_zero]
  -- the energy, a sum of squares, is zero
  have hrows : 0 ≤ ∑ y ∈ range h, ∑ x ∈ range (w - 1),
      (v (x + 1) y - v x y) * (v (x + 1) y - v x y) :=
    sum_nonneg fun y _ => sum_nonneg fun x _ => mul_self_nonneg _
  have hcolumns : 0 ≤ ∑ x ∈ range w, ∑ y ∈ range (h - 1),
      (v x (y + 1) - v x y) * (v x (y + 1) - v x y) :=
    sum_nonneg fun x _ => sum_nonneg fun y _ => mul_self_nonneg _
  rw [hsum] at hparts
  have hright : ∀ y < h, ∀ x, x + 1 < w → v (x + 1) y = v x y := by
    have henergy : ∑ y ∈ range h, ∑ x ∈ range (w - 1),
        (v (x + 1) y - v x y) * (v (x + 1) y - v x y) = 0 := by linarith
    intro y hy x hx
    have hrow := (sum_eq_zero_iff_of_nonneg fun y _ =>
      sum_nonneg fun x _ => mul_self_nonneg _).mp henergy y (mem_range.mpr hy)
    have hcell := (sum_eq_zero_iff_of_nonneg fun x _ => mul_self_nonneg _).mp hrow x
      (mem_range.mpr (by omega))
    exact sub_eq_zero.mp (mul_self_eq_zero.mp hcell)
  have hdown : ∀ x < w, ∀ y, y + 1 < h → v x (y + 1) = v x y := by
    have henergy : ∑ x ∈ range w, ∑ y ∈ range (h - 1),
        (v x (y + 1) - v x y) * (v x (y + 1) - v x y) = 0 := by linarith
    intro x hx y hy
    have hcolumn := (sum_eq_zero_iff_of_nonneg fun x _ =>
      sum_nonneg fun y _ => mul_self_nonneg _).mp henergy x (mem_range.mpr hx)
    have hcell := (sum_eq_zero_iff_of_nonneg fun y _ => mul_self_nonneg _).mp hcolumn y
      (mem_range.mpr (by omega))
    exact sub_eq_zero.mp (mul_self_eq_zero.mp hcell)
  -- every point is reached along the top row and down a column
  have htop : ∀ x < w, 0 < h → v x 0 = v 0 0 := by
    intro x hx hh
    induction x with
    | zero => rfl
    | succ x ih => exact (hright 0 hh x hx).trans (ih (by omega))
  intro x hx y hy
  induction y with
  | zero => exact htop x hx hy
  | succ y ih => exact (hdown x hx y hy).trans (ih (by omega))

end Grid

end Stencil
