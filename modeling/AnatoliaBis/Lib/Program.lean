import Mathlib.Data.List.Basic

/-! # Programs over atomic operations

A request handler of a server touches the shared store only through a fixed
list of operations (one SQL statement, one look at the clock, one call of an
in-memory map). `Program Op Res α` is such a handler: a tree that is either
`done` or about to perform an operation and to continue with its result. The
same tree has two meanings:

* `run` and `trace`: the program alone, one operation after the other;
* `Pool` (in `Lib.Pool`): any number of programs, their operations
  interleaved by an arbitrary schedule.

What an operation does is a function `exec op e s` of the store `s` and of the
environment's choice `e` at that moment (the time, whether the statement
fails, the random bits), so a theorem over all streams of choices is a theorem
over all behaviours.
-/

namespace Atomic

/-- A program that reaches its store only through the operations `Op`. -/
inductive Program (Op : Type) (Res : Op → Type) (α : Type) where
  | done (a : α)
  | call (op : Op) (next : Res op → Program Op Res α)

/-- One executed operation, with the store around it. -/
structure Event (Op ε σ : Type) where
  op : Op
  env : ε
  before : σ
  after : σ

variable {Op ε σ α β : Type} {Res : Op → Type}

namespace Program

/-- Sequential composition. -/
def bind : Program Op Res α → (α → Program Op Res β) → Program Op Res β
  | done a, f => f a
  | call op next, f => call op fun r => (next r).bind f

instance : Monad (Program Op Res) where
  pure := done
  bind := bind

@[simp] theorem pure_eq_done (a : α) : (pure a : Program Op Res α) = done a := rfl

@[simp] theorem done_bind (a : α) (f : α → Program Op Res β) :
    (done a : Program Op Res α) >>= f = f a := rfl

@[simp] theorem call_bind (op : Op) (next : Res op → Program Op Res α)
    (f : α → Program Op Res β) :
    call op next >>= f = call op fun r => next r >>= f := rfl

theorem bind_assoc {γ : Type} (p : Program Op Res α) (f : α → Program Op Res β)
    (g : β → Program Op Res γ) : (p >>= f) >>= g = p >>= fun a => f a >>= g := by
  induction p with
  | done a => rfl
  | call op next ih => exact congrArg _ (funext fun r => ih r)

/-- The same program, its result handed through `f`. -/
def map (f : α → β) : Program Op Res α → Program Op Res β
  | done a => done (f a)
  | call op next => call op fun r => (next r).map f

theorem map_map {γ : Type} (f : α → β) (g : β → γ) (p : Program Op Res α) :
    (p.map f).map g = p.map (g ∘ f) := by
  induction p with
  | done a => rfl
  | call op next ih => exact congrArg _ (funext ih)

theorem map_bind {γ : Type} (p : Program Op Res α) (f : α → Program Op Res β) (g : β → γ) :
    (p >>= f).map g = p >>= fun a => (f a).map g := by
  induction p with
  | done a => rfl
  | call op next ih => exact congrArg _ (funext fun r => ih r)

/-! ## The program alone -/

section Sequential

variable (exec : (op : Op) → ε → σ → σ × Res op)

/-- The result and the final store; `ω n` is the environment's choice at the
`n`-th operation. -/
def run : Program Op Res α → (Nat → ε) → σ → α × σ
  | done a, _, s => (a, s)
  | call op next, ω, s =>
      run (next (exec op (ω 0) s).2) (fun n => ω (n + 1)) (exec op (ω 0) s).1

/-- The operations performed, in order. -/
def trace : Program Op Res α → (Nat → ε) → σ → List (Event Op ε σ)
  | done _, _, _ => []
  | call op next, ω, s =>
      ⟨op, ω 0, s, (exec op (ω 0) s).1⟩ ::
        trace (next (exec op (ω 0) s).2) (fun n => ω (n + 1)) (exec op (ω 0) s).1

@[simp] theorem run_done (a : α) (ω : Nat → ε) (s : σ) :
    (done a : Program Op Res α).run exec ω s = (a, s) := rfl

@[simp] theorem run_call (op : Op) (next : Res op → Program Op Res α) (ω : Nat → ε) (s : σ) :
    (call op next).run exec ω s =
      (next (exec op (ω 0) s).2).run exec (fun n => ω (n + 1)) (exec op (ω 0) s).1 := rfl

@[simp] theorem trace_done (a : α) (ω : Nat → ε) (s : σ) :
    (done a : Program Op Res α).trace exec ω s = [] := rfl

@[simp] theorem trace_call (op : Op) (next : Res op → Program Op Res α) (ω : Nat → ε) (s : σ) :
    (call op next).trace exec ω s =
      ⟨op, ω 0, s, (exec op (ω 0) s).1⟩ ::
        (next (exec op (ω 0) s).2).trace exec (fun n => ω (n + 1)) (exec op (ω 0) s).1 := rfl

theorem run_map (f : α → β) (p : Program Op Res α) (ω : Nat → ε) (s : σ) :
    (p.map f).run exec ω s = (f (p.run exec ω s).1, (p.run exec ω s).2) := by
  induction p generalizing ω s with
  | done a => rfl
  | call op next ih => exact ih _ _ _

/-- A composition runs the first part, then the second where the first ended. -/
theorem run_bind (p : Program Op Res α) (f : α → Program Op Res β) (ω : Nat → ε) (s : σ) :
    (p >>= f).run exec ω s =
      (f (p.run exec ω s).1).run exec (fun n => ω (n + (p.trace exec ω s).length))
        (p.run exec ω s).2 := by
  induction p generalizing ω s with
  | done a => rfl
  | call op next ih =>
      refine (ih _ _ _).trans ?_
      simp only [run_call, trace_call, List.length_cons, Nat.add_assoc]

theorem trace_bind (p : Program Op Res α) (f : α → Program Op Res β) (ω : Nat → ε) (s : σ) :
    (p >>= f).trace exec ω s =
      p.trace exec ω s ++ (f (p.run exec ω s).1).trace exec
        (fun n => ω (n + (p.trace exec ω s).length)) (p.run exec ω s).2 := by
  induction p generalizing ω s with
  | done a => rfl
  | call op next ih =>
      refine (congrArg (List.cons _) (ih _ _ _)).trans ?_
      simp only [run_call, trace_call, List.length_cons, List.cons_append, Nat.add_assoc]

/-- What follows only hands a result on. -/
theorem run_bind_pure (p : Program Op Res α) (g : α → β) (ω : Nat → ε) (s : σ) :
    (p >>= fun a => pure (g a)).run exec ω s = (g (p.run exec ω s).1, (p.run exec ω s).2) := by
  rw [run_bind]
  rfl

theorem trace_map (f : α → β) (p : Program Op Res α) (ω : Nat → ε) (s : σ) :
    (p.map f).trace exec ω s = p.trace exec ω s := by
  induction p generalizing ω s with
  | done a => rfl
  | call op next ih => exact congrArg _ (ih _ _ _)

end Sequential

/-! ## Executions -/

/-- The operations `evs`, one after the other, lead from one store to another. -/
inductive Executes (exec : (op : Op) → ε → σ → σ × Res op) : σ → List (Event Op ε σ) → σ → Prop
  | nil (s : σ) : Executes exec s [] s
  | cons (op : Op) (e : ε) (s : σ) {evs : List (Event Op ε σ)} {s' : σ}
      (rest : Executes exec (exec op e s).1 evs s') :
      Executes exec s (⟨op, e, s, (exec op e s).1⟩ :: evs) s'

section Executions

variable {exec : (op : Op) → ε → σ → σ × Res op}

theorem Executes.append {s s' s'' : σ} {evs evs' : List (Event Op ε σ)}
    (h : Executes exec s evs s') (h' : Executes exec s' evs' s'') :
    Executes exec s (evs ++ evs') s'' := by
  induction h with
  | nil s => exact h'
  | cons op e s rest ih => exact .cons op e s (ih h')

/-- A program alone executes its trace. -/
theorem executes_trace (p : Program Op Res α) (ω : Nat → ε) (s : σ) :
    Executes exec s (p.trace exec ω s) (p.run exec ω s).2 := by
  induction p generalizing ω s with
  | done a => exact .nil s
  | call op next ih => exact .cons op (ω 0) s (ih _ _ _)

end Executions

/-! ## Transactions -/

section Transaction

variable {δ : Type} (exec : (op : Op) → ε → σ → σ × Res op)

/-- A program run as a transaction: when it ends in an error, nothing of what it
did remains. -/
def transaction (p : Program Op Res (Except δ α)) (ω : Nat → ε) (s : σ) : Except δ α × σ :=
  match p.run exec ω s with
  | (.ok a, s') => (.ok a, s')
  | (.error d, _) => (.error d, s)

end Transaction

/-! ## Which operations a program can perform -/

section Performs

variable (exec : (op : Op) → ε → σ → σ × Res op)

/-- Whatever the stores and the environment, the program performs only operations
satisfying `P` and ends only in results satisfying `R`. The store is forgotten
between operations: what is known of a result is what the operation can return
from some store. -/
def Performs (P : Op → Prop) (R : α → Prop) : Program Op Res α → Prop
  | done a => R a
  | call op next => P op ∧ ∀ e s, (next (exec op e s).2).Performs P R

variable {exec} {P P' : Op → Prop} {R R' : α → Prop}

@[simp] theorem performs_done (a : α) :
    (done a : Program Op Res α).Performs exec P R ↔ R a := Iff.rfl

/-- Any program performs something and ends somehow. -/
theorem performs_any (p : Program Op Res α) : p.Performs exec (fun _ => True) (fun _ => True) := by
  induction p with
  | done a => trivial
  | call op next ih => exact ⟨trivial, fun e s => ih _⟩

theorem Performs.mono {p : Program Op Res α} (hp : p.Performs exec P R)
    (hP : ∀ op, P op → P' op) (hR : ∀ a, R a → R' a) : p.Performs exec P' R' := by
  induction p with
  | done a => exact hR a hp
  | call op next ih => exact ⟨hP op hp.1, fun e s => ih _ (hp.2 e s)⟩

theorem Performs.weaken {p : Program Op Res α} (hp : p.Performs exec P R)
    (hP : ∀ op, P op → P' op) : p.Performs exec P' R :=
  hp.mono hP fun _ h => h

theorem Performs.inl {p : Program Op Res α} (hp : p.Performs exec P R) :
    p.Performs exec (fun op => P op ∨ P' op) R :=
  hp.weaken fun _ h => Or.inl h

/-- The rule of sequential composition. -/
theorem Performs.bind {S : β → Prop} {p : Program Op Res α} {f : α → Program Op Res β}
    (hp : p.Performs exec P R) (hf : ∀ a, R a → (f a).Performs exec P S) :
    (p >>= f).Performs exec P S := by
  induction p with
  | done a => exact hf a hp
  | call op next ih => exact ⟨hp.1, fun e s => ih _ (hp.2 e s)⟩

theorem Performs.map {S : β → Prop} {p : Program Op Res α} {f : α → β}
    (hp : p.Performs exec P R) (hf : ∀ a, R a → S (f a)) : (p.map f).Performs exec P S := by
  induction p with
  | done a => exact hf a hp
  | call op next ih => exact ⟨hp.1, fun e s => ih _ (hp.2 e s)⟩

/-- Only operations satisfying `P` appear in the trace. -/
theorem Performs.trace_mem {p : Program Op Res α} (hp : p.Performs exec P R) (ω : Nat → ε)
    (s : σ) : ∀ ev ∈ p.trace exec ω s, P ev.op := by
  induction p generalizing ω s with
  | done a => intro ev hev; cases hev
  | call op next ih =>
      intro ev hev
      rcases List.mem_cons.mp hev with rfl | hev'
      · exact hp.1
      · exact ih _ (hp.2 _ _) _ _ ev hev'

/-- The program alone ends in a result satisfying `R`. -/
theorem Performs.run_result {p : Program Op Res α} (hp : p.Performs exec P R) (ω : Nat → ε)
    (s : σ) : R (p.run exec ω s).1 := by
  induction p generalizing ω s with
  | done a => exact hp
  | call op next ih => exact ih _ (hp.2 _ _) _ _

/-- The operations of a composition, when those of the first part are known. -/
theorem trace_bind_mem {p : Program Op Res α} {f : α → Program Op Res β} {ω : Nat → ε} {s : σ}
    {S : β → Prop} (hp : ∀ ev ∈ p.trace exec ω s, P ev.op)
    (hf : ∀ a, (f a).Performs exec P S) : ∀ ev ∈ (p >>= f).trace exec ω s, P ev.op := by
  intro ev hev
  rw [trace_bind] at hev
  rcases List.mem_append.mp hev with hev | hev
  · exact hp ev hev
  · exact (hf _).trace_mem _ _ ev hev

end Performs

/-! ## Relations between the first and the last store -/

section Keeps

variable (exec : (op : Op) → ε → σ → σ × Res op)

/-- However the environment behaves, the program leads from a store to a related
one. -/
def Keeps (T : σ → σ → Prop) (p : Program Op Res α) : Prop :=
  ∀ ω s, T s (p.run exec ω s).2

variable {exec} {T : σ → σ → Prop}

theorem Keeps.done (hrefl : ∀ s, T s s) (a : α) :
    (done a : Program Op Res α).Keeps exec T := fun _ s => hrefl s

theorem Keeps.call (htrans : ∀ {s s' s''}, T s s' → T s' s'' → T s s'') {op : Op}
    {next : Res op → Program Op Res α} (hop : ∀ e s, T s (exec op e s).1)
    (hnext : ∀ r, (next r).Keeps exec T) : (call op next).Keeps exec T :=
  fun ω s => htrans (hop (ω 0) s) (hnext _ _ _)

theorem Keeps.bind {p : Program Op Res α} {f : α → Program Op Res β} (hp : p.Keeps exec T)
    (htrans : ∀ {s s' s''}, T s s' → T s' s'' → T s s'') (hf : ∀ a, (f a).Keeps exec T) :
    (p >>= f).Keeps exec T := by
  intro ω s
  rw [run_bind]
  exact htrans (hp ω s) (hf _ _ _)

/-- A relation that each operation stays within is kept by the whole program. -/
theorem Performs.keeps {P : Op → Prop} {R : α → Prop} (hrefl : ∀ s, T s s)
    (htrans : ∀ {s s' s''}, T s s' → T s' s'' → T s s'')
    (hstep : ∀ op e s, P op → T s (exec op e s).1) {p : Program Op Res α}
    (hp : p.Performs exec P R) : p.Keeps exec T := by
  induction p with
  | done a => exact Keeps.done hrefl a
  | call op next ih =>
      intro ω s
      exact htrans (hstep op (ω 0) s hp.1) (ih _ (hp.2 _ _) _ _)

end Keeps

/-! ## Gates -/

section Gates

variable (exec : (op : Op) → ε → σ → σ × Res op) (fails : ε → Prop) (permits : α → Prop)

/-- A gate whose operations fail permits nothing that it refuses in some store in
which they succeed. -/
def FailsClosed (p : Program Op Res α) : Prop :=
  ∀ ω ω' s s', (∀ n, fails (ω n)) → (∀ n, ¬ fails (ω' n)) →
    permits (p.run exec ω s).1 → permits (p.run exec ω' s').1

variable {exec fails permits}

/-- A gate that looks nothing up. -/
theorem failsClosed_done (a : α) : (done a : Program Op Res α).FailsClosed exec fails permits :=
  fun _ _ _ _ _ _ h => h

/-- A gate that decides by one look-up. -/
theorem failsClosed_call {op : Op} {decision : Res op → α} {failure : Res op}
    (hfailure : ∀ e s, fails e → (exec op e s).2 = failure) (hfails : ∃ e, fails e) :
    (call op fun r => done (decision r)).FailsClosed exec fails permits ↔
      (permits (decision failure) → ∀ e s, ¬ fails e → permits (decision (exec op e s).2)) := by
  constructor
  · intro h hpermits e s he
    rcases hfails with ⟨e', he'⟩
    apply h (fun _ => e') (fun _ => e) s s (fun _ => he') (fun _ => he)
    show permits (decision (exec op e' s).2)
    rw [hfailure e' s he']
    exact hpermits
  · intro h ω ω' s s' hω hω' hpermits
    have hpermits' : permits (decision (exec op (ω 0) s).2) := hpermits
    rw [hfailure (ω 0) s (hω 0)] at hpermits'
    exact h hpermits' (ω' 0) s' (hω' 0)

end Gates

/-! ## Weakest preconditions -/

section Wp

variable (exec : (op : Op) → ε → σ → σ × Res op) (E : ε → Prop)

/-- From the store `s`, under every environment whose choices satisfy `E`, the
program ends in a result and a store that satisfy `Q`, having performed the
operations that `Q` receives first. -/
def wp : Program Op Res α → (List (Event Op ε σ) → α → σ → Prop) → σ → Prop
  | done a, Q, s => Q [] a s
  | call op next, Q, s => ∀ e, E e →
      wp (next (exec op e s).2) (fun evs => Q (⟨op, e, s, (exec op e s).1⟩ :: evs))
        (exec op e s).1

variable {exec E}

@[simp] theorem wp_done (a : α) (Q : List (Event Op ε σ) → α → σ → Prop) (s : σ) :
    (done a : Program Op Res α).wp exec E Q s ↔ Q [] a s := Iff.rfl

theorem wp_mono {p : Program Op Res α} {Q Q' : List (Event Op ε σ) → α → σ → Prop}
    (hQ : ∀ evs a s, Q evs a s → Q' evs a s) {s : σ} (hp : p.wp exec E Q s) :
    p.wp exec E Q' s := by
  induction p generalizing Q Q' s with
  | done a => exact hQ _ _ _ hp
  | call op next ih =>
      intro e he
      exact ih _ (fun evs a s' h => hQ _ _ _ h) (hp e he)

/-- Of any program something trivial is known. -/
theorem wp_true (p : Program Op Res α) (s : σ) : p.wp exec E (fun _ _ _ => True) s := by
  induction p generalizing s with
  | done a => trivial
  | call op next ih => exact fun e _ => ih _ _

/-- Two specifications at once. -/
theorem wp_and {p : Program Op Res α} {Q Q' : List (Event Op ε σ) → α → σ → Prop} {s : σ}
    (hp : p.wp exec E Q s) (hp' : p.wp exec E Q' s) :
    p.wp exec E (fun evs a s' => Q evs a s' ∧ Q' evs a s') s := by
  induction p generalizing Q Q' s with
  | done a => exact ⟨hp, hp'⟩
  | call op next ih =>
      intro e he
      exact ih _ (hp e he) (hp' e he)

/-- The rule of sequential composition. -/
theorem wp_bind {p : Program Op Res α} {f : α → Program Op Res β}
    {Q : List (Event Op ε σ) → β → σ → Prop} {s : σ}
    (hp : p.wp exec E
      (fun evs a s' => (f a).wp exec E (fun evs' => Q (evs ++ evs')) s') s) :
    (p >>= f).wp exec E Q s := by
  induction p generalizing Q s with
  | done a => exact hp
  | call op next ih =>
      intro e he
      exact ih _ (hp e he)

/-- The rule of sequential composition, with a specification of the first part. -/
theorem wp_bind_of {S : List (Event Op ε σ) → α → σ → Prop} {p : Program Op Res α}
    {f : α → Program Op Res β} {Q : List (Event Op ε σ) → β → σ → Prop} {s : σ}
    (hp : p.wp exec E S s)
    (hf : ∀ evs a s', S evs a s' → (f a).wp exec E (fun evs' => Q (evs ++ evs')) s') :
    (p >>= f).wp exec E Q s :=
  wp_bind (wp_mono hf hp)

theorem wp_map {f : α → β} {p : Program Op Res α} {Q : List (Event Op ε σ) → β → σ → Prop}
    {s : σ} (hp : p.wp exec E (fun evs a => Q evs (f a)) s) : (p.map f).wp exec E Q s := by
  induction p generalizing Q s with
  | done a => exact hp
  | call op next ih =>
      intro e he
      exact ih _ (hp e he)

/-- What a program performs, as a specification about its trace, its result and
a relation between stores that its operations stay within. -/
theorem Performs.wp {P : Op → Prop} {R : α → Prop} {T : σ → σ → Prop}
    (hrefl : ∀ s, T s s) (htrans : ∀ {s s' s''}, T s s' → T s' s'' → T s s'')
    (hstep : ∀ op e s, E e → P op → T s (exec op e s).1) {p : Program Op Res α}
    (hp : p.Performs exec P R) (s : σ) :
    p.wp exec E (fun evs a s' => (∀ ev ∈ evs, P ev.op ∧ T s ev.before) ∧ R a ∧ T s s') s := by
  induction p generalizing s with
  | done a => exact ⟨by simp, hp, hrefl s⟩
  | call op next ih =>
      intro e he
      have hfirst := hstep op e s he hp.1
      refine wp_mono ?_ (ih _ (hp.2 e s) (exec op e s).1)
      rintro evs a s' ⟨hevs, ha, hrel⟩
      refine ⟨?_, ha, htrans hfirst hrel⟩
      intro ev hev
      rcases List.mem_cons.mp hev with rfl | hev'
      · exact ⟨hp.1, hrefl s⟩
      · exact ⟨(hevs ev hev').1, htrans hfirst (hevs ev hev').2⟩

/-- The same without a relation. -/
theorem Performs.wp_mem {P : Op → Prop} {R : α → Prop} {p : Program Op Res α}
    (hp : p.Performs exec P R) (s : σ) :
    p.wp exec E (fun evs a _ => (∀ ev ∈ evs, P ev.op) ∧ R a) s := by
  have h := hp.wp (E := E) (T := fun _ _ => True) (fun _ => trivial) (fun _ _ => trivial)
    (fun _ _ _ _ _ => trivial) s
  refine wp_mono ?_ h
  rintro evs a s' ⟨hevs, ha, -⟩
  exact ⟨fun ev hev => (hevs ev hev).1, ha⟩

/-- The same with what no operation changes. -/
theorem Performs.wp_same {P : Op → Prop} {R : α → Prop} {f : σ → β}
    (hstep : ∀ op e s, P op → f (exec op e s).1 = f s) {p : Program Op Res α}
    (hp : p.Performs exec P R) (s : σ) :
    p.wp exec E (fun evs a s' => (∀ ev ∈ evs, P ev.op) ∧ R a ∧ f s' = f s) s := by
  have h := hp.wp (E := E) (T := fun s s' => f s' = f s) (fun _ => rfl) (fun h h' => h'.trans h)
    (fun op e s _ hop => hstep op e s hop) s
  refine wp_mono ?_ h
  rintro evs a s' ⟨hevs, ha, hsame⟩
  exact ⟨fun ev hev => (hevs ev hev).1, ha, hsame⟩

/-- A precondition computed by `wp` is met by every actual run. -/
theorem wp_run {p : Program Op Res α} {Q : List (Event Op ε σ) → α → σ → Prop} {s : σ}
    (hp : p.wp exec E Q s) {ω : Nat → ε} (hω : ∀ n, E (ω n)) :
    Q (p.trace exec ω s) (p.run exec ω s).1 (p.run exec ω s).2 := by
  induction p generalizing Q s ω with
  | done a => exact hp
  | call op next ih => exact ih _ (hp (ω 0) (hω 0)) (fun n => hω (n + 1))

/-- What every run satisfies is a specification. -/
theorem wp_of_run [Nonempty ε] {p : Program Op Res α} {Q : List (Event Op ε σ) → α → σ → Prop}
    {s : σ} (hp : ∀ ω, Q (p.trace exec ω s) (p.run exec ω s).1 (p.run exec ω s).2) :
    p.wp exec (fun _ => True) Q s := by
  induction p generalizing Q s with
  | done a => exact hp fun _ => Classical.arbitrary ε
  | call op next ih =>
      intro e _
      refine ih _ fun ω => ?_
      exact hp fun n => Nat.casesOn n e ω

end Wp

end Program

end Atomic
