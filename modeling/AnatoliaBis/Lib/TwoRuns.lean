import AnatoliaBis.Lib.Program

/-! # Two runs

Two programs are run under one environment from two stores that a relation `R` holds
between. They are coupled when both take equally many operations, `R` holds between
the stores they end in, and `S` between their results. What an observer may not learn
is what `S` does not tell apart, whatever `R` leaves open.
-/

namespace Atomic.Program

variable {Op ε σ α α' β β' : Type} {Res : Op → Type}

/-- The two runs take equally many operations and end related. -/
def Coupled (exec : (op : Op) → ε → σ → σ × Res op) (R : σ → σ → Prop) (S : α → α' → Prop)
    (p : Program Op Res α) (q : Program Op Res α') : Prop :=
  ∀ ω s t, R s t →
    S (p.run exec ω s).1 (q.run exec ω t).1 ∧ R (p.run exec ω s).2 (q.run exec ω t).2 ∧
      (p.trace exec ω s).length = (q.trace exec ω t).length

variable {exec : (op : Op) → ε → σ → σ × Res op} {R : σ → σ → Prop} {S : α → α' → Prop}
  {S' : β → β' → Prop} {p : Program Op Res α} {q : Program Op Res α'}

theorem coupled_done {a : α} {b : α'} (h : S a b) :
    Coupled exec R S (done a : Program Op Res α) (done b) :=
  fun _ _ _ hst => ⟨h, hst, rfl⟩

/-- The rule of sequential composition. -/
theorem Coupled.bind {f : α → Program Op Res β} {g : α' → Program Op Res β'}
    (hp : Coupled exec R S p q) (hf : ∀ a b, S a b → Coupled exec R S' (f a) (g b)) :
    Coupled exec R S' (p >>= f) (q >>= g) := by
  intro ω s t hst
  rcases hp ω s t hst with ⟨hresult, hstores, hlength⟩
  have hnext := hf _ _ hresult (fun n => ω (n + (p.trace exec ω s).length)) _ _ hstores
  rw [run_bind, run_bind, trace_bind, trace_bind, List.length_append, List.length_append,
    ← hlength]
  exact ⟨hnext.1, hnext.2.1, congrArg _ hnext.2.2⟩

theorem Coupled.mono {S' : α → α' → Prop} (hp : Coupled exec R S p q)
    (hS : ∀ a b, S a b → S' a b) : Coupled exec R S' p q := by
  intro ω s t hst
  rcases hp ω s t hst with ⟨hresult, hstores⟩
  exact ⟨hS _ _ hresult, hstores⟩

/-- What an observer of the results sees, if `S` is equality. -/
theorem Coupled.run_eq {q : Program Op Res α} (hp : Coupled exec R Eq p q) {s t : σ}
    (hst : R s t) (ω : Nat → ε) : (p.run exec ω s).1 = (q.run exec ω t).1 :=
  (hp ω s t hst).1

end Atomic.Program
