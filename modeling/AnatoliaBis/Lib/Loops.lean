import Mathlib.Data.List.Basic

/-! # Counted loops

`for i in 0..n` over a body that may panic. An invariant that every round carries on holds
at the end, and then no round panics.
-/

namespace Loops

variable {σ : Type}

/-- `for i in 0..n`. -/
def forRange (n : Nat) (body : σ → Nat → Option σ) (s : σ) : Option σ :=
  (List.range n).foldlM body s

/-- What holds before round `i` holds before round `i + 1`. -/
theorem forRange_invariant {n : Nat} {body : σ → Nat → Option σ} (P : Nat → σ → Prop)
    (hbody : ∀ i < n, ∀ s, P i s → ∃ s', body s i = some s' ∧ P (i + 1) s') {s : σ} (hs : P 0 s) :
    ∃ s', forRange n body s = some s' ∧ P n s' := by
  induction n with
  | zero => exact ⟨s, rfl, hs⟩
  | succ n ih =>
      rcases ih fun i hi => hbody i (Nat.lt_succ_of_lt hi) with ⟨s', hrun, hs'⟩
      rcases hbody n (Nat.lt_succ_self n) s' hs' with ⟨s'', hlast, hs''⟩
      refine ⟨s'', ?_, hs''⟩
      unfold forRange at hrun ⊢
      rw [List.range_succ, List.foldlM_append, hrun]
      show ((List.foldlM body s' [n]) : Option σ) = some s''
      rw [List.foldlM_cons, hlast]
      rfl

/-- Rounds that each append something. -/
theorem forRange_collect {α : Type} {n : Nat} {body : List α → Nat → Option (List α)}
    (f : Nat → List α) (hbody : ∀ i < n, ∀ s, body s i = some (s ++ f i)) (s : List α) :
    forRange n body s = some (s ++ (List.range n).flatMap f) := by
  have hround : ∀ i < n, ∀ s', s' = s ++ (List.range i).flatMap f →
      ∃ s'', body s' i = some s'' ∧ s'' = s ++ (List.range (i + 1)).flatMap f := by
    rintro i hi _ rfl
    refine ⟨_, hbody i hi _, ?_⟩
    rw [List.range_succ, List.flatMap_append, List.flatMap_singleton, List.append_assoc]
  rcases forRange_invariant (fun i s' => s' = s ++ (List.range i).flatMap f) hround
    (List.append_nil s).symm with ⟨s', hrun, rfl⟩
  exact hrun

end Loops
