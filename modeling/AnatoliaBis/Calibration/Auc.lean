import AnatoliaBis.Calibration.EqualError
import Mathlib.Algebra.BigOperators.Group.List.Basic
import Mathlib.Algebra.BigOperators.Ring.List
import Mathlib.Data.Rat.Cast.CharZero
import Mathlib.Tactic.FieldSimp
import Mathlib.Tactic.Ring

/-! # The area under the curve

The trapezoids between neighbouring thresholds, counted over impostors: no score lies
strictly between neighbours, so an impostor is in the trapezoid above its own score, and
what it adds there is the genuine scores above it and half of those equal to it.
-/

namespace AnatoliaBis.Calibration

open Increasing (neighbours)

variable {K : Type} [LinearOrder K] {pairs : List (ScoredPair K)} {a b : Threshold K}

/-- `calibration::auc`. -/
def auc (pairs : List (ScoredPair K)) : ℚ :=
  let points := (rocCurve pairs).reverse.map fun p => (p.far, 1 - p.frr)
  (neighbours points).foldl (fun area ((x0, y0), (x1, y1)) => area + (x1 - x0) * (y0 + y1) / 2) 0

/-- Every impostor with every genuine pair. -/
def comparisons (pairs : List (ScoredPair K)) : List (ScoredPair K × ScoredPair K) :=
  (impostors pairs).flatMap fun i => (genuine pairs).map fun g => (i, g)

/-- The share of comparisons that the genuine score wins, ties counted half. -/
def mannWhitney (pairs : List (ScoredPair K)) : ℚ :=
  (((comparisons pairs).countP fun (i, g) => decide (i.score < g.score)) +
    ((comparisons pairs).countP fun (i, g) => decide (i.score = g.score)) / 2) /
      ((genuine pairs).length * (impostors pairs).length)

/-! ## Counting -/

/-- The impostors that a threshold accepts. -/
def acceptedImpostors (pairs : List (ScoredPair K)) (t : Threshold K) : ℚ :=
  ((impostors pairs).countP fun p => decide (t ≤ .finite p.score) : ℕ)

/-- The genuine pairs that a threshold accepts. -/
def acceptedGenuine (pairs : List (ScoredPair K)) (t : Threshold K) : ℚ :=
  ((genuine pairs).countP fun p => decide (t ≤ .finite p.score) : ℕ)

/-- What an impostor adds: the genuine scores above it, and half of those equal to it. -/
def credit (pairs : List (ScoredPair K)) (i : ScoredPair K) : ℚ :=
  ((genuine pairs).countP fun g => decide (i.score < g.score) : ℕ) +
    ((genuine pairs).countP fun g => decide (i.score = g.score) : ℕ) / 2

theorem length_ne_zero_of_mem {α : Type} {l : List α} {x : α} (h : x ∈ l) :
    (l.length : ℚ) ≠ 0 := by
  have hpos := List.length_pos_of_mem h
  exact_mod_cast hpos.ne'

theorem far_eq (h : ∃ p ∈ pairs, p.isGenuine = false) (t : Threshold K) :
    farAtThreshold pairs t = acceptedImpostors pairs t / (impostors pairs).length := by
  rcases h with ⟨q, hq, hclass⟩
  have hmem : q ∈ impostors pairs := List.mem_filter.mpr ⟨hq, by rw [hclass]; rfl⟩
  unfold farAtThreshold
  rw [if_neg (by rw [List.isEmpty_iff]; exact List.ne_nil_of_mem hmem)]
  rfl

theorem tpr_eq (h : ∃ p ∈ pairs, p.isGenuine = true) (t : Threshold K) :
    1 - frrAtThreshold pairs t = acceptedGenuine pairs t / (genuine pairs).length := by
  rcases h with ⟨q, hq, hclass⟩
  have hmem : q ∈ genuine pairs := List.mem_filter.mpr ⟨hq, hclass⟩
  have hlength := length_ne_zero_of_mem hmem
  have hsplit : (genuine pairs).length =
      (genuine pairs).countP (fun p => decide (.finite p.score < t)) +
        (genuine pairs).countP fun p => decide (t ≤ .finite p.score) := by
    rw [List.length_eq_countP_add_countP fun p => decide (.finite p.score < t)]
    congr 1
    apply List.countP_congr
    intro p _
    simp
  unfold frrAtThreshold acceptedGenuine
  rw [if_neg (by rw [List.isEmpty_iff]; exact List.ne_nil_of_mem hmem)]
  field_simp
  rw [hsplit]
  push_cast
  ring

/-- A share of a list that only part of it contributes to, and equally. -/
theorem countP_sub_mul {α : Type} {l : List α} {p q : α → Prop} [DecidablePred p]
    [DecidablePred q] {c : α → ℚ} {w : ℚ} (hqp : ∀ x ∈ l, q x → p x)
    (hc : ∀ x ∈ l, p x → ¬ q x → c x = w) :
    ((l.countP fun x => decide (p x) : ℕ) - (l.countP fun x => decide (q x) : ℕ) : ℚ) * w =
      (l.map fun x => if p x then c x else 0).sum -
        (l.map fun x => if q x then c x else 0).sum := by
  induction l with
  | nil => simp
  | cons x l ih =>
      have hrest := ih (fun y hy => hqp y (List.mem_cons_of_mem _ hy))
        fun y hy => hc y (List.mem_cons_of_mem _ hy)
      rw [List.countP_cons, List.countP_cons, List.map_cons, List.map_cons, List.sum_cons,
        List.sum_cons]
      by_cases hq : q x
      · have hp := hqp x List.mem_cons_self hq
        simp only [hp, hq, decide_true, if_true]
        push_cast
        linarith
      · by_cases hp : p x
        · have hx := hc x List.mem_cons_self hp hq
          simp only [hp, hq, hx, decide_true, decide_false, if_true, if_false, Bool.false_eq_true]
          push_cast
          linarith
        · simp only [hp, hq, decide_false, if_false, Bool.false_eq_true]
          push_cast
          linarith

theorem countP_le (l : List (ScoredPair K)) (x : K) :
    (l.countP fun g => decide (x ≤ g.score)) =
      (l.countP fun g => decide (x < g.score)) + l.countP fun g => decide (x = g.score) := by
  induction l with
  | nil => rfl
  | cons g l ih =>
      rw [List.countP_cons, List.countP_cons, List.countP_cons, ih]
      rcases lt_trichotomy x g.score with h | h | h
      · simp [h, h.le, h.ne]
        omega
      · simp [h]
        omega
      · simp [h.not_gt, h.not_ge, h.ne']

/-! ## One trapezoid -/

/-- No score lies strictly between the neighbours `a` and `b`. -/
def NextTo (pairs : List (ScoredPair K)) (a b : Threshold K) : Prop :=
  a < b ∧ ∀ p ∈ pairs, a < .finite p.score → b ≤ .finite p.score

/-- What an impostor between two neighbours adds. -/
theorem credit_of_nextTo (h : NextTo pairs a b) {i : ScoredPair K} (hi : i ∈ pairs)
    (hai : a ≤ .finite i.score) (hib : ¬ b ≤ .finite i.score) :
    credit pairs i = (acceptedGenuine pairs a + acceptedGenuine pairs b) / 2 := by
  have ha : a = .finite i.score := by
    apply le_antisymm hai
    exact not_lt.mp fun hlt => hib (h.2 i hi hlt)
  have habove : (genuine pairs).countP (fun g => decide (b ≤ .finite g.score)) =
      (genuine pairs).countP fun g => decide (i.score < g.score) := by
    apply List.countP_congr
    intro g hg
    rw [decide_eq_true_iff, decide_eq_true_iff, ← finite_lt_finite, ← ha]
    constructor
    · exact fun hle => h.1.trans_le hle
    · exact h.2 g (List.mem_of_mem_filter hg)
  have hfrom : (genuine pairs).countP (fun g => decide (a ≤ .finite g.score)) =
      (genuine pairs).countP (fun g => decide (i.score < g.score)) +
        (genuine pairs).countP fun g => decide (i.score = g.score) := by
    rw [← countP_le]
    apply List.countP_congr
    intro g _
    rw [decide_eq_true_iff, decide_eq_true_iff, ha, finite_le_finite]
  unfold credit acceptedGenuine
  rw [habove, hfrom]
  push_cast
  ring

/-- The impostors' credits from a threshold on. -/
def creditsFrom (pairs : List (ScoredPair K)) (t : Threshold K) : ℚ :=
  ((impostors pairs).map fun i => if t ≤ .finite i.score then credit pairs i else 0).sum

/-- A trapezoid, before it is divided by the numbers of pairs. -/
def trapezoid (pairs : List (ScoredPair K)) (a b : Threshold K) : ℚ :=
  (acceptedImpostors pairs a - acceptedImpostors pairs b) *
    ((acceptedGenuine pairs a + acceptedGenuine pairs b) / 2)

theorem trapezoid_eq (h : NextTo pairs a b) :
    trapezoid pairs a b = creditsFrom pairs a - creditsFrom pairs b := by
  unfold trapezoid acceptedImpostors creditsFrom
  apply countP_sub_mul
  · exact fun i _ hle => h.1.le.trans hle
  · intro i hi
    exact credit_of_nextTo h (List.mem_of_mem_filter hi)

/-! ## All of them -/

theorem creditsFrom_top : creditsFrom pairs ⊤ = 0 := by
  unfold creditsFrom
  apply List.sum_eq_zero
  intro x hx
  rcases List.mem_map.mp hx with ⟨i, -, rfl⟩
  have hlt : Threshold.finite i.score < ⊤ := WithBot.coe_lt_coe.mpr (WithTop.coe_lt_top _)
  exact if_neg (not_le.mpr hlt)

theorem creditsFrom_bot :
    creditsFrom pairs ⊥ = ((impostors pairs).map (credit pairs)).sum := by
  apply congrArg List.sum
  apply List.map_congr_left
  intro i _
  exact if_pos bot_le

/-- In an increasing list that has every score from its head on, neighbours are next to
each other; so the trapezoids add up to the credits from its head on. -/
theorem sum_trapezoids {l : List (Threshold K)} (hl : (a :: l).Pairwise (· < ·))
    (hlast : (a :: l).getLast? = some ⊤)
    (hall : ∀ p ∈ pairs, a ≤ .finite p.score → .finite p.score ∈ a :: l) :
    ((neighbours (a :: l)).map fun (a, b) => trapezoid pairs a b).sum = creditsFrom pairs a := by
  induction l generalizing a with
  | nil =>
      have htop : a = ⊤ := Option.some.inj hlast
      rw [htop, creditsFrom_top]
      rfl
  | cons b l ih =>
      have hab : a < b := List.rel_of_pairwise_cons hl List.mem_cons_self
      have habove : ∀ p ∈ pairs, a < .finite p.score → .finite p.score ∈ b :: l := by
        intro p hp hlt
        rcases List.mem_cons.mp (hall p hp hlt.le) with heq | hmem
        · exact absurd heq hlt.ne'
        · exact hmem
      have hnext : NextTo pairs a b := by
        refine ⟨hab, ?_⟩
        intro p hp hlt
        rcases List.mem_cons.mp (habove p hp hlt) with heq | hmem
        · exact heq.ge
        · exact (List.rel_of_pairwise_cons hl.of_cons hmem).le
      have hrest := ih hl.of_cons (by rwa [List.getLast?_cons_cons] at hlast)
        fun p hp hle => habove p hp (hab.trans_le hle)
      rw [Increasing.neighbours_cons_cons, List.map_cons, List.sum_cons, hrest]
      show trapezoid pairs a b + creditsFrom pairs b = creditsFrom pairs a
      rw [trapezoid_eq hnext]
      ring

/-- The credits are the comparisons won, and half of those tied. -/
theorem sum_credits : ((impostors pairs).map (credit pairs)).sum =
    ((comparisons pairs).countP fun (i, g) => decide (i.score < g.score) : ℕ) +
      ((comparisons pairs).countP fun (i, g) => decide (i.score = g.score) : ℕ) / 2 := by
  unfold comparisons
  induction impostors pairs with
  | nil => simp
  | cons i l ih =>
      rw [List.map_cons, List.sum_cons, ih, List.flatMap_cons, List.countP_append,
        List.countP_append, List.countP_map, List.countP_map]
      unfold credit
      push_cast
      simp only [Function.comp_def]
      ring

/-! ## The area -/

theorem foldl_add_eq_sum {α : Type} (f : α → ℚ) (l : List α) :
    l.foldl (fun area x => area + f x) 0 = (l.map f).sum := by
  induction l using List.reverseRecOn with
  | nil => rfl
  | append_singleton l x ih => simp [ih]

theorem neighbours_map {α β : Type} (f : α → β) (l : List α) :
    neighbours (l.map f) = (neighbours l).map fun (x, y) => (f x, f y) := by
  unfold neighbours
  rw [← List.map_tail, List.zip_map]
  rfl

/-- The curve walked from its end, as the thresholds from their first. -/
theorem auc_eq_sum (pairs : List (ScoredPair K)) :
    auc pairs = ((neighbours (thresholds pairs)).map fun (a, b) =>
      (farAtThreshold pairs a - farAtThreshold pairs b) *
        ((1 - frrAtThreshold pairs b) + (1 - frrAtThreshold pairs a)) / 2).sum := by
  unfold auc rocCurve
  dsimp only
  rw [foldl_add_eq_sum fun w : (ℚ × ℚ) × (ℚ × ℚ) => (w.2.1 - w.1.1) * (w.1.2 + w.2.2) / 2,
    ← List.map_reverse, List.map_map, neighbours_map, Increasing.neighbours_reverse,
    List.map_reverse, List.map_reverse, List.sum_reverse, List.map_map, List.map_map]
  rfl

/-- **The area under the curve is the Mann–Whitney statistic.** -/
theorem auc_eq_mannWhitney (pairs : List (ScoredPair K))
    (hgenuine : ∃ p ∈ pairs, p.isGenuine = true) (himpostor : ∃ p ∈ pairs, p.isGenuine = false) :
    auc pairs = mannWhitney pairs := by
  have hgenuine' := tpr_eq hgenuine
  have himpostor' := far_eq himpostor
  have hscale : ∀ a b : Threshold K,
      (farAtThreshold pairs a - farAtThreshold pairs b) *
          ((1 - frrAtThreshold pairs b) + (1 - frrAtThreshold pairs a)) / 2 =
        trapezoid pairs a b * (1 / ((genuine pairs).length * (impostors pairs).length)) := by
    intro a b
    rw [himpostor', himpostor', hgenuine', hgenuine']
    unfold trapezoid
    ring
  have hsum : ((neighbours (thresholds pairs)).map fun (a, b) => trapezoid pairs a b).sum =
      creditsFrom pairs ⊥ := by
    have hhead := head_thresholds pairs
    have hincreasing := pairwise_thresholds pairs
    have hlast := getLast_thresholds pairs
    have hscores : ∀ p ∈ pairs, .finite p.score ∈ thresholds pairs :=
      fun p hp => mem_thresholds.mpr (Or.inr (Or.inr ⟨p, hp, rfl⟩))
    cases hl : thresholds pairs with
    | nil =>
        rw [hl] at hhead
        cases hhead
    | cons a l =>
        rw [hl] at hhead hincreasing hlast hscores
        rcases Option.some.inj hhead with rfl
        exact sum_trapezoids hincreasing hlast fun p hp _ => hscores p hp
  calc auc pairs
      = ((neighbours (thresholds pairs)).map fun (a, b) => trapezoid pairs a b *
          (1 / ((genuine pairs).length * (impostors pairs).length))).sum := by
        rw [auc_eq_sum]
        simp only [hscale]
    _ = creditsFrom pairs ⊥ * (1 / ((genuine pairs).length * (impostors pairs).length)) := by
        rw [← hsum, ← List.sum_map_mul_right]
    _ = mannWhitney pairs := by
        rw [creditsFrom_bot, sum_credits, mul_one_div]
        rfl

theorem auc_eq_mannWhitney_sample :
    auc sampleScores = mannWhitney sampleScores ∧ mannWhitney sampleScores = 3 / 4 := by
  constructor
  · exact auc_eq_mannWhitney sampleScores ⟨⟨9 / 10, true⟩, List.mem_cons_self, rfl⟩
      ⟨⟨7 / 10, false⟩, by simp [sampleScores], rfl⟩
  · decide +kernel

end AnatoliaBis.Calibration
