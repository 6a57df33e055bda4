import AnatoliaBis.Calibration.Roc
import Mathlib.Algebra.Order.Ring.Abs
import Mathlib.Data.List.MinMax

/-! # The equal error rate

Only observed scores are tried. Above the highest of them all are rejected, which is as far
from equal rates as can be, and at any other threshold the rates are those at an observed
one; so the choice is the best of all. The rate is zero where a threshold tells the two
classes apart.
-/

namespace AnatoliaBis.Calibration

variable {K : Type} [LinearOrder K] {pairs : List (ScoredPair K)} {t : Threshold K}

/-- How far apart the two rates are. -/
def RocPoint.gap (p : RocPoint K) : ℚ := |p.far - p.frr|

/-- `calibration::equal_error_rate`. `min_by` returns the first of equal minima. -/
def equalErrorRate (pairs : List (ScoredPair K)) : Option (Threshold K × ℚ) :=
  (List.argmin RocPoint.gap ((rocCurve pairs).filter fun p => p.threshold.isFinite)).map fun p =>
    (p.threshold, (p.far + p.frr) / 2)

/-- Every genuine score is greater than every impostor score. -/
def Separated (pairs : List (ScoredPair K)) : Prop :=
  ∀ p ∈ pairs, ∀ q ∈ pairs, p.isGenuine = true → q.isGenuine = false → q.score < p.score

/-! ## Rates at the ends and in between -/

theorem gap_le_one : (rocPoint pairs t).gap ≤ 1 := by
  have hfar : 0 ≤ farAtThreshold pairs t := far_nonneg
  have hfar' : farAtThreshold pairs t ≤ 1 := far_le_one
  have hfrr : 0 ≤ frrAtThreshold pairs t := frr_nonneg
  have hfrr' : frrAtThreshold pairs t ≤ 1 := frr_le_one
  show |farAtThreshold pairs t - frrAtThreshold pairs t| ≤ 1
  rw [abs_le]
  constructor
  · linarith
  · linarith

theorem far_eq_zero_iff (h : ∃ p ∈ pairs, p.isGenuine = false) :
    farAtThreshold pairs t = 0 ↔ ∀ p ∈ pairs, p.isGenuine = false → .finite p.score < t := by
  have hmem : ∀ p, p ∈ impostors pairs ↔ p ∈ pairs ∧ p.isGenuine = false := by
    intro p
    unfold impostors
    rw [List.mem_filter, Bool.not_eq_true']
  rcases h with ⟨q, hq, hclass⟩
  have hne : impostors pairs ≠ [] := List.ne_nil_of_mem ((hmem q).mpr ⟨hq, hclass⟩)
  have hlength : ((impostors pairs).length : ℚ) ≠ 0 := by
    exact_mod_cast fun h => hne (List.length_eq_zero_iff.mp h)
  unfold farAtThreshold
  rw [if_neg (by rwa [List.isEmpty_iff]), div_eq_zero_iff, or_iff_left hlength, Nat.cast_eq_zero,
    List.countP_eq_zero]
  constructor
  · intro h p hp hclass'
    exact not_le.mp fun hle => h p ((hmem p).mpr ⟨hp, hclass'⟩) (decide_eq_true hle)
  · intro h p hp hle
    have hp' := (hmem p).mp hp
    exact absurd (h p hp'.1 hp'.2) (not_lt.mpr (of_decide_eq_true hle))

theorem frr_eq_zero_iff (h : ∃ p ∈ pairs, p.isGenuine = true) :
    frrAtThreshold pairs t = 0 ↔ ∀ p ∈ pairs, p.isGenuine = true → t ≤ .finite p.score := by
  have hmem : ∀ p, p ∈ genuine pairs ↔ p ∈ pairs ∧ p.isGenuine = true := fun p => List.mem_filter
  rcases h with ⟨q, hq, hclass⟩
  have hne : genuine pairs ≠ [] := List.ne_nil_of_mem ((hmem q).mpr ⟨hq, hclass⟩)
  have hlength : ((genuine pairs).length : ℚ) ≠ 0 := by
    exact_mod_cast fun h => hne (List.length_eq_zero_iff.mp h)
  unfold frrAtThreshold
  rw [if_neg (by rwa [List.isEmpty_iff]), div_eq_zero_iff, or_iff_left hlength, Nat.cast_eq_zero,
    List.countP_eq_zero]
  constructor
  · intro h p hp hclass'
    exact not_lt.mp fun hlt => h p ((hmem p).mpr ⟨hp, hclass'⟩) (decide_eq_true hlt)
  · intro h p hp hlt
    have hp' := (hmem p).mp hp
    exact absurd (of_decide_eq_true hlt) (not_lt.mpr (h p hp'.1 hp'.2))

omit [LinearOrder K] in
theorem not_isFinite : t.isFinite = false ↔ t = ⊥ ∨ t = ⊤ := by
  rcases t with _ | _ | x
  · exact ⟨fun _ => Or.inl rfl, fun _ => rfl⟩
  · exact ⟨fun _ => Or.inr rfl, fun _ => rfl⟩
  · exact ⟨nofun, nofun⟩

theorem finite_lt_finite {x y : K} : Threshold.finite x < Threshold.finite y ↔ x < y := by
  unfold Threshold.finite
  rw [WithBot.coe_lt_coe, WithTop.coe_lt_coe]

theorem finite_le_finite {x y : K} : Threshold.finite x ≤ Threshold.finite y ↔ x ≤ y := by
  unfold Threshold.finite
  rw [WithBot.coe_le_coe, WithTop.coe_le_coe]

/-- No impostor is left out at the lowest threshold. -/
theorem far_bot (h : ∃ p ∈ pairs, p.isGenuine = false) : farAtThreshold pairs ⊥ = 1 := by
  rcases h with ⟨q, hq, hclass⟩
  have hmem : q ∈ impostors pairs := by
    unfold impostors
    exact List.mem_filter.mpr ⟨hq, by rw [hclass]; rfl⟩
  have hne : impostors pairs ≠ [] := List.ne_nil_of_mem hmem
  have hcount : (impostors pairs).countP (fun p => decide (⊥ ≤ Threshold.finite p.score)) =
      (impostors pairs).length := List.countP_eq_length.mpr fun p _ => decide_eq_true bot_le
  unfold farAtThreshold
  rw [if_neg (by rwa [List.isEmpty_iff]), hcount]
  apply div_self
  exact_mod_cast fun h => hne (List.length_eq_zero_iff.mp h)

/-- No genuine pair is accepted at the highest threshold. -/
theorem frr_top (h : ∃ p ∈ pairs, p.isGenuine = true) : frrAtThreshold pairs ⊤ = 1 := by
  rcases h with ⟨q, hq, hclass⟩
  have hne : genuine pairs ≠ [] := List.ne_nil_of_mem (List.mem_filter.mpr ⟨hq, hclass⟩)
  have hcount : (genuine pairs).countP (fun p => decide (Threshold.finite p.score < ⊤)) =
      (genuine pairs).length := by
    apply List.countP_eq_length.mpr
    intro p _
    exact decide_eq_true (WithBot.coe_lt_coe.mpr (WithTop.coe_lt_top _))
  unfold frrAtThreshold
  rw [if_neg (by rwa [List.isEmpty_iff]), hcount]
  apply div_self
  exact_mod_cast fun h => hne (List.length_eq_zero_iff.mp h)

/-- At an infinite threshold the rates are as far apart as can be. -/
theorem gap_of_infinite (hgenuine : ∃ p ∈ pairs, p.isGenuine = true)
    (himpostor : ∃ p ∈ pairs, p.isGenuine = false) (h : t.isFinite = false) :
    (rocPoint pairs t).gap = 1 := by
  show |farAtThreshold pairs t - frrAtThreshold pairs t| = 1
  rcases not_isFinite.mp h with rfl | rfl
  · have hfrr : frrAtThreshold pairs ⊥ = 0 := (frr_eq_zero_iff hgenuine).mpr fun _ _ _ => bot_le
    rw [far_bot himpostor, hfrr, sub_zero, abs_one]
  · have hfar : farAtThreshold pairs ⊤ = 0 := by
      apply (far_eq_zero_iff himpostor).mpr
      intro p _ _
      exact WithBot.coe_lt_coe.mpr (WithTop.coe_lt_top _)
    rw [hfar, frr_top hgenuine, zero_sub, abs_neg, abs_one]

/-! ## The choice -/

/-- The rates are zero exactly at the thresholds that tell the classes apart. -/
theorem separated_of_rates (hgenuine : ∃ p ∈ pairs, p.isGenuine = true)
    (himpostor : ∃ p ∈ pairs, p.isGenuine = false) (hfar : farAtThreshold pairs t = 0)
    (hfrr : frrAtThreshold pairs t = 0) : Separated pairs := by
  intro p hp q hq hpclass hqclass
  have hrejected := (far_eq_zero_iff himpostor).mp hfar q hq hqclass
  have haccepted := (frr_eq_zero_iff hgenuine).mp hfrr p hp hpclass
  exact finite_lt_finite.mp (hrejected.trans_le haccepted)

/-- Where the classes are apart, the least genuine score does not err. -/
theorem exists_rates_of_separated (hgenuine : ∃ p ∈ pairs, p.isGenuine = true)
    (himpostor : ∃ p ∈ pairs, p.isGenuine = false) (h : Separated pairs) :
    ∃ t : Threshold K, farAtThreshold pairs t = 0 ∧ frrAtThreshold pairs t = 0 := by
  have hne : (genuine pairs).map (·.score) ≠ [] := by
    rcases hgenuine with ⟨q, hq, hclass⟩
    exact List.ne_nil_of_mem (List.mem_map_of_mem (List.mem_filter.mpr ⟨hq, hclass⟩))
  obtain ⟨x, hx⟩ := Option.ne_none_iff_exists'.mp (mt List.min?_eq_none_iff.mp hne)
  rw [List.min?_eq_some_iff] at hx
  rcases List.mem_map.mp hx.1 with ⟨least, hmem, rfl⟩
  have hleast := List.mem_filter.mp hmem
  refine ⟨.finite least.score, ?_, ?_⟩
  · apply (far_eq_zero_iff himpostor).mpr
    intro q hq hclass
    exact finite_lt_finite.mpr (h least hleast.1 q hq hleast.2 hclass)
  · apply (frr_eq_zero_iff hgenuine).mpr
    intro p hp hclass
    apply not_lt.mp
    intro hlt
    have hle := hx.2 p.score (List.mem_map_of_mem (List.mem_filter.mpr ⟨hp, hclass⟩))
    exact absurd (finite_lt_finite.mp hlt) (not_lt.mpr hle)

/-- Where the classes are apart, equal rates are zero. -/
theorem rates_eq_zero_of_gap (h : Separated pairs) (hgenuine : ∃ p ∈ pairs, p.isGenuine = true)
    (himpostor : ∃ p ∈ pairs, p.isGenuine = false) (hgap : (rocPoint pairs t).gap = 0) :
    farAtThreshold pairs t = 0 ∧ frrAtThreshold pairs t = 0 := by
  have heq : farAtThreshold pairs t = frrAtThreshold pairs t := sub_eq_zero.mp (abs_eq_zero.mp hgap)
  by_cases hfar : farAtThreshold pairs t = 0
  · exact ⟨hfar, heq ▸ hfar⟩
  · exfalso
    have hfrr : frrAtThreshold pairs t ≠ 0 := heq ▸ hfar
    rw [far_eq_zero_iff himpostor] at hfar
    rw [ne_eq, frr_eq_zero_iff hgenuine] at hfrr
    push Not at hfar hfrr
    rcases hfar with ⟨q, hq, hqclass, haccepted⟩
    rcases hfrr with ⟨p, hp, hpclass, hrejected⟩
    -- an accepted impostor above a rejected genuine pair
    have hlt := h p hp q hq hpclass hqclass
    exact absurd (hrejected.trans_le haccepted) (not_lt.mpr (finite_lt_finite.mpr hlt).le)

/-- The threshold that is returned, and what is reported with it. -/
structure OptimalThreshold (pairs : List (ScoredPair K)) (found : Threshold K × ℚ) : Prop where
  /-- It is an observed score. -/
  observed : ∃ p ∈ pairs, found.1 = .finite p.score
  best : ∀ t : K, |farAtThreshold pairs found.1 - frrAtThreshold pairs found.1| ≤
    |farAtThreshold pairs (.finite t) - frrAtThreshold pairs (.finite t)|
  rate : found.2 = (farAtThreshold pairs found.1 + frrAtThreshold pairs found.1) / 2
  zero_iff : found.2 = 0 ↔ Separated pairs

/-- **The equal-error threshold is the best of all**, and its rate is zero exactly where the
classes are apart. -/
theorem equal_error_optimal (pairs : List (ScoredPair K))
    (hgenuine : ∃ p ∈ pairs, p.isGenuine = true) (himpostor : ∃ p ∈ pairs, p.isGenuine = false) :
    ∃ found, equalErrorRate pairs = some found ∧ OptimalThreshold pairs found := by
  have hcurve : ∀ q : RocPoint K, q ∈ rocCurve pairs →
      ∃ t ∈ thresholds pairs, rocPoint pairs t = q := fun q hq => List.mem_map.mp hq
  have hne : ((rocCurve pairs).filter fun p => p.threshold.isFinite) ≠ [] := by
    rcases hgenuine with ⟨p, hp, -⟩
    have hmem : Threshold.finite p.score ∈ thresholds pairs :=
      mem_thresholds.mpr (Or.inr (Or.inr ⟨p, hp, rfl⟩))
    exact List.ne_nil_of_mem (List.mem_filter.mpr ⟨List.mem_map_of_mem hmem, rfl⟩)
  obtain ⟨best, hbest⟩ := Option.ne_none_iff_exists'.mp
    (mt (List.argmin_eq_none (f := RocPoint.gap)).mp hne)
  have hmem := List.mem_filter.mp (List.argmin_mem hbest)
  obtain ⟨t, ht, rfl⟩ := hcurve best hmem.1
  have hfinite : t.isFinite = true := hmem.2
  -- no point of the curve has closer rates, infinite ones included
  have hall : ∀ t' : Threshold K, (rocPoint pairs t).gap ≤ (rocPoint pairs t').gap := by
    intro t'
    obtain ⟨t'', hmem'', hfar, hfrr⟩ := exists_threshold pairs t'
    have hgap : (rocPoint pairs t'').gap = (rocPoint pairs t').gap := by
      unfold RocPoint.gap rocPoint
      rw [hfar, hfrr]
    rw [← hgap]
    cases hinfinite : t''.isFinite with
    | true =>
        exact List.le_of_mem_argmin
          (List.mem_filter.mpr ⟨List.mem_map_of_mem hmem'', hinfinite⟩) hbest
    | false =>
        rw [gap_of_infinite hgenuine himpostor hinfinite]
        exact gap_le_one
  have hfound : equalErrorRate pairs =
      some (t, (farAtThreshold pairs t + frrAtThreshold pairs t) / 2) := by
    unfold equalErrorRate
    rw [hbest]
    rfl
  refine ⟨_, hfound, ?_, ?_, rfl, ?_⟩
  · rcases mem_thresholds.mp ht with rfl | rfl | hp
    · cases hfinite
    · cases hfinite
    · exact hp
  · exact fun t' => hall (.finite t')
  · have hfar : 0 ≤ farAtThreshold pairs t := far_nonneg
    have hfrr : 0 ≤ frrAtThreshold pairs t := frr_nonneg
    dsimp only
    constructor
    · intro hzero
      exact separated_of_rates (t := t) hgenuine himpostor (by linarith) (by linarith)
    · intro hseparated
      obtain ⟨t₀, hfar₀, hfrr₀⟩ := exists_rates_of_separated hgenuine himpostor hseparated
      have hgap₀ : (rocPoint pairs t₀).gap = 0 := by
        show |farAtThreshold pairs t₀ - frrAtThreshold pairs t₀| = 0
        rw [hfar₀, hfrr₀, sub_zero, abs_zero]
      have hgap : (rocPoint pairs t).gap = 0 := by
        apply le_antisymm
        · exact (hall t₀).trans hgap₀.le
        · exact abs_nonneg _
      have hrates := rates_eq_zero_of_gap hseparated hgenuine himpostor hgap
      rw [hrates.1, hrates.2]
      norm_num

/-- Two genuine scores and two impostor scores, overlapping. -/
def sampleScores : List (ScoredPair ℚ) :=
  [⟨9 / 10, true⟩, ⟨3 / 5, true⟩, ⟨7 / 10, false⟩, ⟨1 / 5, false⟩]

theorem equal_error_optimal_sample :
    ∃ found, equalErrorRate sampleScores = some found ∧ OptimalThreshold sampleScores found :=
  equal_error_optimal sampleScores ⟨⟨9 / 10, true⟩, List.mem_cons_self, rfl⟩
    ⟨⟨7 / 10, false⟩, by simp [sampleScores], rfl⟩

end AnatoliaBis.Calibration
