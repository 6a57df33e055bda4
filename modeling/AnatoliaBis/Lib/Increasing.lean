import Mathlib.Data.Finset.Max
import Mathlib.Data.List.Destutter
import Mathlib.Data.List.Sort

/-! # Increasing lists

A list is sorted and repetitions are dropped: what remains increases strictly and has the
same members. In such a list a member has a next greater one or is the greatest. Neighbours
are the windows of length two.
-/

namespace Increasing

variable {α : Type}

/-! ## Distinct members in order -/

section Distinct

variable [LinearOrder α] {l : List α} {a : α}

/-- `sort` and `dedup`. -/
def distinct (l : List α) : List α :=
  (l.mergeSort fun a b => decide (a ≤ b)).destutter (· ≠ ·)

theorem pairwise_le_sort (l : List α) :
    (l.mergeSort fun a b => decide (a ≤ b)).Pairwise (· ≤ ·) := by
  have hsorted : (l.mergeSort fun a b => decide (a ≤ b)).Pairwise fun a b =>
      decide (a ≤ b) = true := by
    apply List.pairwise_mergeSort
    · intro a b c hab hbc
      exact decide_eq_true ((of_decide_eq_true hab).trans (of_decide_eq_true hbc))
    · intro a b
      simpa using le_total a b
  exact hsorted.imp fun h => of_decide_eq_true h

/-- A repetition is dropped, its first occurrence stays. -/
theorem mem_destutter' {b : α} (h : b ∈ a :: l) : b ∈ l.destutter' (· ≠ ·) a := by
  induction l generalizing a with
  | nil => simpa using h
  | cons c l ih =>
      rw [List.destutter'_cons]
      split_ifs with hac
      · rcases List.mem_cons.mp h with rfl | h
        · exact List.mem_cons_self
        · exact List.mem_cons_of_mem _ (ih h)
      · have heq : a = c := not_not.mp hac
        rw [heq, List.mem_cons, List.mem_cons, or_self_left] at h
        apply ih
        rw [heq]
        exact List.mem_cons.mpr h

theorem mem_distinct : a ∈ distinct l ↔ a ∈ l := by
  have hperm := List.mergeSort_perm l fun a b => decide (a ≤ b)
  unfold distinct
  constructor
  · intro h
    exact hperm.mem_iff.mp ((List.destutter_sublist _ _).subset h)
  · intro h
    have hsort := hperm.mem_iff.mpr h
    cases hs : l.mergeSort fun a b => decide (a ≤ b) with
    | nil =>
        rw [hs] at hsort
        cases hsort
    | cons b rest =>
        rw [hs] at hsort
        exact mem_destutter' hsort

theorem pairwise_distinct (l : List α) : (distinct l).Pairwise (· < ·) := by
  have hle : (distinct l).Pairwise (· ≤ ·) :=
    (pairwise_le_sort l).sublist (List.destutter_sublist _ _)
  have hne : (distinct l).IsChain (· ≠ ·) := List.isChain_destutter _ _
  have hlt : (distinct l).IsChain (· < ·) := by
    rw [← List.isChain_iff_pairwise] at hle
    rw [List.isChain_iff_getElem] at hle hne ⊢
    intro i hi
    exact lt_of_le_of_ne (hle i hi) (hne i hi)
  exact List.isChain_iff_pairwise.mp hlt

/-- The least member that is not below `a`. -/
theorem exists_least {top : α} (htop : top ∈ l) (h : a ≤ top) :
    ∃ b ∈ l, a ≤ b ∧ ∀ c ∈ l, a ≤ c → b ≤ c := by
  have hne : (l.toFinset.filter (a ≤ ·)).Nonempty :=
    ⟨top, Finset.mem_filter.mpr ⟨List.mem_toFinset.mpr htop, h⟩⟩
  have hmin := Finset.min'_mem _ hne
  rw [Finset.mem_filter, List.mem_toFinset] at hmin
  refine ⟨_, hmin.1, hmin.2, ?_⟩
  intro c hc hac
  exact Finset.min'_le _ c (Finset.mem_filter.mpr ⟨List.mem_toFinset.mpr hc, hac⟩)

end Distinct

/-! ## Neighbours -/

/-- `windows(2)`. -/
def neighbours (l : List α) : List (α × α) := l.zip l.tail

@[simp] theorem neighbours_cons_cons (a b : α) (l : List α) :
    neighbours (a :: b :: l) = (a, b) :: neighbours (b :: l) := rfl

theorem neighbours_concat {l : List α} (h : l ≠ []) (a : α) :
    neighbours (l ++ [a]) = neighbours l ++ [(l.getLast h, a)] := by
  induction l with
  | nil => exact absurd rfl h
  | cons b l ih =>
      cases l with
      | nil => rfl
      | cons c l =>
          have hrest := ih (List.cons_ne_nil c l)
          rw [List.cons_append] at hrest
          rw [List.cons_append, List.cons_append, neighbours_cons_cons, hrest,
            neighbours_cons_cons, List.getLast_cons (List.cons_ne_nil c l)]
          rfl

/-- From the other end the neighbours are the same, the other way round. -/
theorem neighbours_reverse (l : List α) :
    neighbours l.reverse = ((neighbours l).map Prod.swap).reverse := by
  induction l with
  | nil => rfl
  | cons a l ih =>
      cases l with
      | nil => rfl
      | cons b l =>
          have hne : (b :: l).reverse ≠ [] := by simp
          rw [List.reverse_cons, neighbours_concat hne, List.getLast_reverse, List.head_cons, ih,
            neighbours_cons_cons, List.map_cons, List.reverse_cons]
          rfl

end Increasing
