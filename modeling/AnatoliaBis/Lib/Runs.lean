import AnatoliaBis.Lib.Program

/-! # Runs of requests

Requests handled one after the other, each to its end, by programs that share a
store. A run is a list of requests with what the operations of each meet.
-/

namespace Atomic

/-- A request, and what its operations meet. -/
structure Visit (ρ ε : Type) where
  request : ρ
  env : Nat → ε

variable {ρ Op ε σ α : Type} {Res : Op → Type}
  (exec : (op : Op) → ε → σ → σ × Res op) (handle : ρ → Program Op Res α)

namespace Visit

/-- The store once the request is handled. -/
def after (v : Visit ρ ε) (s : σ) : σ := ((handle v.request).run exec v.env s).2

/-- The answer. -/
def answer (v : Visit ρ ε) (s : σ) : α := ((handle v.request).run exec v.env s).1

end Visit

/-- The store after a run. -/
def stateAfter (s : σ) (run : List (Visit ρ ε)) : σ :=
  run.foldl (fun s v => v.after exec handle s) s

/-- Somewhere in the run `v` is handled next, in the store `s`. -/
def Visits (s₀ : σ) (run : List (Visit ρ ε)) (s : σ) (v : Visit ρ ε) : Prop :=
  ∃ before later, run = before ++ v :: later ∧ s = stateAfter exec handle s₀ before

variable {exec handle} {s₀ s : σ} {v : Visit ρ ε} {run run' : List (Visit ρ ε)}

@[simp] theorem stateAfter_nil : stateAfter exec handle s [] = s := rfl

@[simp] theorem stateAfter_cons :
    stateAfter exec handle s (v :: run) = stateAfter exec handle (v.after exec handle s) run := rfl

theorem stateAfter_append :
    stateAfter exec handle s (run ++ run') =
      stateAfter exec handle (stateAfter exec handle s run) run' :=
  List.foldl_append

theorem visits_cons_self : Visits exec handle s (v :: run) s v := ⟨[], run, rfl, rfl⟩

theorem Visits.cons {w : Visit ρ ε} (h : Visits exec handle (w.after exec handle s₀) run s v) :
    Visits exec handle s₀ (w :: run) s v := by
  rcases h with ⟨before, later, rfl, rfl⟩
  exact ⟨w :: before, later, rfl, rfl⟩

/-! What holds wherever a list is cut, one element after the other. -/

theorem cut_nil {P : List ρ → ρ → List ρ → Prop} :
    ∀ earlier v later, [] = earlier ++ v :: later → P earlier v later := by
  intro earlier v later h
  simp at h

theorem cut_cons {P : List ρ → ρ → List ρ → Prop} {a : ρ} {l : List ρ} (ha : P [] a l)
    (hl : ∀ earlier v later, l = earlier ++ v :: later → P (a :: earlier) v later) :
    ∀ earlier v later, a :: l = earlier ++ v :: later → P earlier v later := by
  intro earlier v later h
  cases earlier with
  | nil =>
      rcases List.cons.inj h with ⟨rfl, rfl⟩
      exact ha
  | cons b earlier =>
      rcases List.cons.inj h with ⟨rfl, hrest⟩
      exact hl earlier v later hrest

/-- What every visit keeps holds wherever the run leads. -/
theorem stateAfter_invariant {I : σ → Prop} (hs : I s₀)
    (hstep : ∀ s v, Visits exec handle s₀ run s v → I s → I (v.after exec handle s)) :
    I (stateAfter exec handle s₀ run) := by
  induction run generalizing s₀ with
  | nil => exact hs
  | cons w run ih =>
      exact ih (hstep s₀ w visits_cons_self hs) fun s v hv => hstep s v hv.cons

end Atomic
