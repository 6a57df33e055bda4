import Mathlib.Data.List.Infix
import Mathlib.Data.List.Basic

/-! # Keeping what does not clash

A list is gone through once, and an entry is kept unless it clashes with one that was kept
before it. Entries that were dropped do not matter; so two kept entries never clash, and
each dropped one clashes with a kept one before it, which is what keeping greedily means.
-/

namespace Greedy

variable {α β : Type} (clash : α → α → Bool)

/-- One entry more. -/
def consider (kept : List α) (a : α) : List α :=
  if kept.any fun b => clash a b then kept else kept ++ [a]

/-- The entries that are kept. -/
def keep (l : List α) : List α := l.foldl (consider clash) []

variable {clash} {l : List α} {a : α}

theorem keep_concat : keep clash (l ++ [a]) = consider clash (keep clash l) a := by
  unfold keep
  rw [List.foldl_append]
  rfl

theorem prefix_consider (kept : List α) (a : α) : kept <+: consider clash kept a := by
  unfold consider
  split_ifs
  · exact List.prefix_refl kept
  · exact List.prefix_append kept [a]

/-- What is kept of a first part stays. -/
theorem keep_initial (l l' : List α) : keep clash l <+: keep clash (l ++ l') := by
  induction l' using List.reverseRecOn with
  | nil => rw [List.append_nil]
  | append_singleton l' a ih =>
      rw [← List.append_assoc, keep_concat]
      exact ih.trans (prefix_consider _ a)

theorem keep_sublist (l : List α) : (keep clash l).Sublist l := by
  induction l using List.reverseRecOn with
  | nil => exact List.Sublist.slnil
  | append_singleton l a ih =>
      rw [keep_concat]
      unfold consider
      split_ifs
      · exact ih.trans (List.sublist_append_left l [a])
      · exact ih.append_right [a]

/-- Kept entries do not clash, the later one with the earlier. -/
theorem pairwise_keep (l : List α) : (keep clash l).Pairwise fun a b => clash b a = false := by
  induction l using List.reverseRecOn with
  | nil => exact List.Pairwise.nil
  | append_singleton l b ih =>
      rw [keep_concat]
      unfold consider
      split_ifs with h
      · exact ih
      · apply List.pairwise_append.mpr
        refine ⟨ih, List.pairwise_singleton _ b, ?_⟩
        intro a ha b' hb
        rw [List.mem_singleton.mp hb, ← Bool.not_eq_true]
        exact fun hclash => h (List.any_eq_true.mpr ⟨a, ha, hclash⟩)

/-- A dropped entry clashes with a kept one that comes before it. -/
theorem exists_clash {before : α → α → Prop} (hl : l.Pairwise before) (ha : a ∈ l)
    (hdropped : a ∉ keep clash l) : ∃ b ∈ keep clash l, before b a ∧ clash a b = true := by
  induction l using List.reverseRecOn with
  | nil => cases ha
  | append_singleton l c ih =>
      have hsplit := List.pairwise_append.mp hl
      have hinitial : keep clash l ⊆ keep clash (l ++ [c]) := (keep_initial l [c]).subset
      rcases List.mem_append.mp ha with ha | ha
      · obtain ⟨b, hb, hbefore, hclash⟩ := ih hsplit.1 ha fun h => hdropped (hinitial h)
        exact ⟨b, hinitial hb, hbefore, hclash⟩
      · rw [List.mem_singleton.mp ha] at hdropped ⊢
        rw [keep_concat] at hdropped
        unfold consider at hdropped
        split_ifs at hdropped with h
        · obtain ⟨b, hb, hclash⟩ := List.any_eq_true.mp h
          have hbefore := hsplit.2.2 b ((keep_sublist l).subset hb) c (List.mem_singleton_self c)
          exact ⟨b, hinitial hb, hbefore, hclash⟩
        · exact absurd (List.mem_append_right _ (List.mem_singleton_self c)) hdropped

/-- Where nothing clashes everything is kept. -/
theorem keep_eq_self (h : l.Pairwise fun a b => clash b a = false) : keep clash l = l := by
  induction l using List.reverseRecOn with
  | nil => rfl
  | append_singleton l a ih =>
      have hsplit := List.pairwise_append.mp h
      rw [keep_concat, ih hsplit.1]
      unfold consider
      rw [if_neg]
      intro hany
      obtain ⟨b, hb, hclash⟩ := List.any_eq_true.mp hany
      have hnot := hsplit.2.2 b hb a (List.mem_singleton_self a)
      rw [hnot] at hclash
      cases hclash

theorem keep_keep (l : List α) : keep clash (keep clash l) = keep clash l :=
  keep_eq_self (pairwise_keep l)

/-- The first entry is kept. -/
theorem head_keep (a : α) (l : List α) : (keep clash (a :: l)).head? = some a := by
  have hinitial : keep clash [a] <+: keep clash ([a] ++ l) := keep_initial [a] l
  obtain ⟨rest, hrest⟩ := hinitial
  have hsingle : keep clash [a] = [a] := rfl
  rw [List.singleton_append, hsingle] at hrest
  rw [← hrest]
  rfl

/-- Entries that carry more than what clashes. -/
theorem map_keep (clash : α → α → Bool) (f : β → α) (l : List β) :
    (keep (fun a b => clash (f a) (f b)) l).map f = keep clash (l.map f) := by
  induction l using List.reverseRecOn with
  | nil => rfl
  | append_singleton l a ih =>
      rw [List.map_append, List.map_singleton, keep_concat, keep_concat, ← ih]
      unfold consider
      rw [List.any_map]
      simp only [Function.comp_def]
      split_ifs
      · rfl
      · rw [List.map_append, List.map_singleton]

end Greedy
