import AnatoliaBis.Lib.Increasing
import Mathlib.Algebra.Order.Field.Rat
import Mathlib.Order.WithBot
import Mathlib.Tactic.Linarith

/-! # Error rates and the ROC curve

`calibration.rs`. Scores are the members of any linear order, a threshold is one of them or
an infinity, and rates are exact.
-/

namespace AnatoliaBis.Calibration

/-- `calibration::ScoredPair`. -/
structure ScoredPair (K : Type) where
  score : K
  isGenuine : Bool
  deriving Repr, DecidableEq

/-- A finite threshold, or `f64::NEG_INFINITY`, or `f64::INFINITY`. -/
abbrev Threshold (K : Type) := WithBot (WithTop K)

/-- A score as a threshold. -/
def Threshold.finite {K : Type} (score : K) : Threshold K :=
  ((score : WithTop K) : WithBot (WithTop K))

/-- `f64::is_finite`. -/
def Threshold.isFinite {K : Type} : Threshold K → Bool
  | none | some none => false
  | some (some _) => true

/-- `calibration::RocPoint`. -/
structure RocPoint (K : Type) where
  threshold : Threshold K
  far : ℚ
  frr : ℚ

section Rates

variable {K : Type} [LinearOrder K] (pairs : List (ScoredPair K))

/-- The impostors' pairs. -/
def impostors : List (ScoredPair K) := pairs.filter fun p => !p.isGenuine

/-- The genuine pairs. -/
def genuine : List (ScoredPair K) := pairs.filter fun p => p.isGenuine

/-- `calibration::far_at_threshold`. -/
def farAtThreshold (threshold : Threshold K) : ℚ :=
  if (impostors pairs).isEmpty then 0
  else ((impostors pairs).countP fun p => decide (threshold ≤ .finite p.score)) /
    (impostors pairs).length

/-- `calibration::frr_at_threshold`. -/
def frrAtThreshold (threshold : Threshold K) : ℚ :=
  if (genuine pairs).isEmpty then 0
  else ((genuine pairs).countP fun p => decide (.finite p.score < threshold)) /
    (genuine pairs).length

/-- The point of the curve at a threshold. -/
def rocPoint (threshold : Threshold K) : RocPoint K :=
  ⟨threshold, farAtThreshold pairs threshold, frrAtThreshold pairs threshold⟩

/-- The thresholds of `roc_curve`. -/
def thresholds : List (Threshold K) :=
  Increasing.distinct ((pairs.map fun p => .finite p.score) ++ [⊥, ⊤])

/-- `calibration::roc_curve`. -/
def rocCurve : List (RocPoint K) := (thresholds pairs).map (rocPoint pairs)

end Rates

/-! ## Rates -/

section Bounds

variable {K : Type} [LinearOrder K] {pairs : List (ScoredPair K)} {t t' : Threshold K}

theorem far_nonneg : 0 ≤ farAtThreshold pairs t := by
  unfold farAtThreshold
  split_ifs
  · exact le_rfl
  · exact div_nonneg (Nat.cast_nonneg _) (Nat.cast_nonneg _)

theorem frr_nonneg : 0 ≤ frrAtThreshold pairs t := by
  unfold frrAtThreshold
  split_ifs
  · exact le_rfl
  · exact div_nonneg (Nat.cast_nonneg _) (Nat.cast_nonneg _)

/-- A share of a list. -/
theorem countP_div_length_le_one {α : Type} (p : α → Bool) (l : List α) :
    (l.countP p : ℚ) / l.length ≤ 1 := by
  apply div_le_one_of_le₀
  · exact_mod_cast List.countP_le_length
  · exact Nat.cast_nonneg _

theorem far_le_one : farAtThreshold pairs t ≤ 1 := by
  unfold farAtThreshold
  split_ifs
  · exact zero_le_one
  · exact countP_div_length_le_one _ _

theorem frr_le_one : frrAtThreshold pairs t ≤ 1 := by
  unfold frrAtThreshold
  split_ifs
  · exact zero_le_one
  · exact countP_div_length_le_one _ _

/-- A higher threshold accepts no more impostors. -/
theorem far_anti (h : t ≤ t') : farAtThreshold pairs t' ≤ farAtThreshold pairs t := by
  unfold farAtThreshold
  split_ifs
  · exact le_rfl
  · apply div_le_div_of_nonneg_right _ (Nat.cast_nonneg _)
    have hcount := List.countP_mono_left (l := impostors pairs)
      (p := fun p => decide (t' ≤ .finite p.score)) (q := fun p => decide (t ≤ .finite p.score))
      fun p _ hp => decide_eq_true (h.trans (of_decide_eq_true hp))
    exact_mod_cast hcount

/-- A higher threshold rejects no fewer genuine pairs. -/
theorem frr_mono (h : t ≤ t') : frrAtThreshold pairs t ≤ frrAtThreshold pairs t' := by
  unfold frrAtThreshold
  split_ifs
  · exact le_rfl
  · apply div_le_div_of_nonneg_right _ (Nat.cast_nonneg _)
    have hcount := List.countP_mono_left (l := genuine pairs)
      (p := fun p => decide (.finite p.score < t)) (q := fun p => decide (.finite p.score < t'))
      fun p _ hp => decide_eq_true ((of_decide_eq_true hp).trans_le h)
    exact_mod_cast hcount

/-- Only the decisions matter: two thresholds that accept the same scores have the same
rates. -/
theorem rates_congr (h : ∀ p ∈ pairs, t ≤ .finite p.score ↔ t' ≤ .finite p.score) :
    farAtThreshold pairs t = farAtThreshold pairs t' ∧
      frrAtThreshold pairs t = frrAtThreshold pairs t' := by
  have hfar : (impostors pairs).countP (fun p => decide (t ≤ .finite p.score)) =
      (impostors pairs).countP fun p => decide (t' ≤ .finite p.score) := by
    apply List.countP_congr
    intro p hp
    rw [decide_eq_true_iff, decide_eq_true_iff]
    exact h p (List.mem_of_mem_filter hp)
  have hfrr : (genuine pairs).countP (fun p => decide (.finite p.score < t)) =
      (genuine pairs).countP fun p => decide (.finite p.score < t') := by
    apply List.countP_congr
    intro p hp
    rw [decide_eq_true_iff, decide_eq_true_iff, ← not_le, ← not_le]
    exact not_congr (h p (List.mem_of_mem_filter hp))
  unfold farAtThreshold frrAtThreshold
  rw [hfar, hfrr]
  exact ⟨rfl, rfl⟩

end Bounds

/-! ## The curve -/

section Curve

variable {K : Type} [LinearOrder K] {pairs : List (ScoredPair K)} {t : Threshold K}

theorem mem_thresholds :
    t ∈ thresholds pairs ↔ t = ⊥ ∨ t = ⊤ ∨ ∃ p ∈ pairs, t = .finite p.score := by
  unfold thresholds
  rw [Increasing.mem_distinct, List.mem_append, List.mem_map]
  constructor
  · rintro (⟨p, hp, rfl⟩ | h)
    · exact Or.inr (Or.inr ⟨p, hp, rfl⟩)
    · simp only [List.mem_cons, List.not_mem_nil, or_false] at h
      rcases h with rfl | rfl
      · exact Or.inl rfl
      · exact Or.inr (Or.inl rfl)
  · rintro (rfl | rfl | ⟨p, hp, rfl⟩)
    · exact Or.inr (by simp)
    · exact Or.inr (by simp)
    · exact Or.inl ⟨p, hp, rfl⟩

theorem pairwise_thresholds (pairs : List (ScoredPair K)) :
    (thresholds pairs).Pairwise (· < ·) := Increasing.pairwise_distinct _

/-- In a strictly increasing list a least element comes first. -/
theorem head_thresholds (pairs : List (ScoredPair K)) : (thresholds pairs).head? = some ⊥ := by
  have hbot : ⊥ ∈ thresholds pairs := mem_thresholds.mpr (Or.inl rfl)
  have hincreasing := pairwise_thresholds pairs
  cases hl : thresholds pairs with
  | nil =>
      rw [hl] at hbot
      cases hbot
  | cons a l =>
      rw [hl] at hbot hincreasing
      rcases List.mem_cons.mp hbot with rfl | hmem
      · rfl
      · exact absurd (List.rel_of_pairwise_cons hincreasing hmem) not_lt_bot

theorem getLast_thresholds (pairs : List (ScoredPair K)) :
    (thresholds pairs).getLast? = some ⊤ := by
  have htop : ⊤ ∈ thresholds pairs := mem_thresholds.mpr (Or.inr (Or.inl rfl))
  have hincreasing := pairwise_thresholds pairs
  rcases List.eq_nil_or_concat (thresholds pairs) with hl | ⟨l, a, hl⟩
  · rw [hl] at htop
    cases htop
  · rw [List.concat_eq_append] at hl
    rw [hl] at htop hincreasing ⊢
    rw [List.getLast?_concat]
    rcases List.mem_append.mp htop with hmem | hmem
    · have hlt := (List.pairwise_append.mp hincreasing).2.2 ⊤ hmem a (List.mem_singleton_self a)
      exact absurd hlt not_top_lt
    · rw [List.mem_singleton.mp hmem]

/-- At every threshold the rates are those at the next one that is tried. -/
theorem exists_threshold (pairs : List (ScoredPair K)) (t : Threshold K) :
    ∃ t' ∈ thresholds pairs, farAtThreshold pairs t' = farAtThreshold pairs t ∧
      frrAtThreshold pairs t' = frrAtThreshold pairs t := by
  have htop : ⊤ ∈ thresholds pairs := mem_thresholds.mpr (Or.inr (Or.inl rfl))
  obtain ⟨t', hmem, hle, hleast⟩ := Increasing.exists_least htop (le_top : t ≤ ⊤)
  refine ⟨t', hmem, ?_⟩
  apply rates_congr
  intro p hp
  constructor
  · exact hle.trans
  · intro h
    exact hleast _ (mem_thresholds.mpr (Or.inr (Or.inr ⟨p, hp, rfl⟩))) h

/-- The curve is exact and monotone. -/
structure ExactCurve (pairs : List (ScoredPair K)) (curve : List (RocPoint K)) : Prop where
  increasing : curve.Pairwise fun p q => p.threshold < q.threshold
  first : curve.head?.map (·.threshold) = some ⊥
  last : curve.getLast?.map (·.threshold) = some ⊤
  far : curve.Pairwise fun p q => q.far ≤ p.far
  frr : curve.Pairwise fun p q => p.frr ≤ q.frr
  /-- Each point has the rates at its threshold. -/
  exact : ∀ p ∈ curve, p.far = farAtThreshold pairs p.threshold ∧
    p.frr = frrAtThreshold pairs p.threshold
  complete : ∀ t : K, ∃ p ∈ curve, p.far = farAtThreshold pairs (.finite t) ∧
    p.frr = frrAtThreshold pairs (.finite t)

/-- **The ROC curve leaves no decision boundary out.** -/
theorem roc_exact (pairs : List (ScoredPair K)) : ExactCurve pairs (rocCurve pairs) := by
  have hincreasing := pairwise_thresholds pairs
  unfold rocCurve
  constructor
  · exact List.pairwise_map.mpr hincreasing
  · rw [List.head?_map, head_thresholds]
    rfl
  · rw [List.getLast?_map, getLast_thresholds]
    rfl
  · exact List.pairwise_map.mpr (hincreasing.imp fun h => far_anti h.le)
  · exact List.pairwise_map.mpr (hincreasing.imp fun h => frr_mono h.le)
  · intro p hp
    rcases List.mem_map.mp hp with ⟨t, -, rfl⟩
    exact ⟨rfl, rfl⟩
  · intro t
    obtain ⟨t', hmem, hfar, hfrr⟩ := exists_threshold pairs (.finite t)
    exact ⟨rocPoint pairs t', List.mem_map_of_mem hmem, hfar, hfrr⟩

end Curve

end AnatoliaBis.Calibration
