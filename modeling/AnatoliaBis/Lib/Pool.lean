import AnatoliaBis.Lib.Program
import Mathlib.Data.List.Induction
import Mathlib.Logic.Function.Basic

/-! # Programs side by side

Requests handled at the same time share the store and take turns, one operation
at a time. A `Pool` is such a group of programs and their store; a schedule says
whose turn it is and what the operation meets. `Program.Guarantees` is what a
program keeps to on its own, whatever the others do to the store between its
operations; `Pool.guarantees` carries it into every interleaving.
-/

namespace Atomic

/-- Programs that share one store. -/
structure Pool (ι Op : Type) (Res : Op → Type) (α σ : Type) where
  threads : ι → Program Op Res α
  store : σ

variable {ι Op ε σ α β : Type} {Res : Op → Type}

/-! ## Executions, cut in two -/

namespace Program

variable {exec : (op : Op) → ε → σ → σ × Res op}

/-- An event in the middle of an execution happens in the store reached there. -/
theorem Executes.split {s s' : σ} {evs evs' : List (Event Op ε σ)} {ev : Event Op ε σ}
    (h : Executes exec s (evs ++ ev :: evs') s') :
    Executes exec s evs ev.before ∧ ev.after = (exec ev.op ev.env ev.before).1 ∧
      Executes exec ev.after evs' s' := by
  induction evs generalizing s with
  | nil =>
      cases h with
      | cons op e s rest => exact ⟨.nil s, rfl, rest⟩
  | cons first evs ih =>
      cases h with
      | cons op e s rest =>
          rcases ih rest with ⟨hbefore, hafter, hrest⟩
          exact ⟨.cons op e s hbefore, hafter, hrest⟩

/-- A relation that every operation of an execution stays within. -/
theorem Executes.rel {T : σ → σ → Prop} (hrefl : ∀ s, T s s)
    (htrans : ∀ {s s' s''}, T s s' → T s' s'' → T s s'') {s s' : σ}
    {evs : List (Event Op ε σ)} (h : Executes exec s evs s')
    (hstep : ∀ ev ∈ evs, ev.after = (exec ev.op ev.env ev.before).1 → T ev.before ev.after) :
    T s s' := by
  induction h with
  | nil s => exact hrefl s
  | cons op e s rest ih =>
      refine htrans (hstep _ (List.mem_cons_self ..) rfl) (ih fun ev hev => ?_)
      exact hstep ev (List.mem_cons_of_mem _ hev)

/-- What no operation of an execution changes. -/
theorem Executes.same {f : σ → β} {s s' : σ} {evs : List (Event Op ε σ)}
    (h : Executes exec s evs s') (hstep : ∀ ev ∈ evs, ∀ s, f (exec ev.op ev.env s).1 = f s) :
    f s' = f s :=
  h.rel (T := fun s s' => f s' = f s) (fun _ => rfl) (fun h h' => h'.trans h)
    fun ev hev hafter => by
      rw [hafter]
      exact hstep ev hev ev.before

/-- Every event of an execution is one of its operation. -/
theorem Executes.after_eq {s s' : σ} {evs : List (Event Op ε σ)} (h : Executes exec s evs s')
    {ev : Event Op ε σ} (hev : ev ∈ evs) : ev.after = (exec ev.op ev.env ev.before).1 := by
  rcases List.append_of_mem hev with ⟨l, l', rfl⟩
  exact h.split.2.1

/-- What is spent only where it is held, and held only once it was given. -/
theorem Executes.countP_le {s s' : σ} {evs : List (Event Op ε σ)} (h : Executes exec s evs s')
    (spent given : Event Op ε σ → Bool) (held : σ → Nat)
    (hstep : ∀ op e s, (spent ⟨op, e, s, (exec op e s).1⟩).toNat + held (exec op e s).1 ≤
      (given ⟨op, e, s, (exec op e s).1⟩).toNat + held s) :
    evs.countP spent + held s' ≤ evs.countP given + held s := by
  have hcount : ∀ b : Bool, (if b = true then 1 else 0) = b.toNat := by decide
  induction h with
  | nil s => simp
  | cons op e s rest ih =>
      have hfirst := hstep op e s
      rw [List.countP_cons, List.countP_cons, hcount, hcount]
      omega

/-! ## What a program keeps to on its own -/

section Guarantees

variable (exec)

/-- After the history `h` of its own operations the program performs an operation
only where `J` allows it and ends only in results that `Q` allows, whatever
happens to the store between its operations. -/
def Guarantees (J : List (Event Op ε σ) → Op → Prop) (Q : List (Event Op ε σ) → α → Prop) :
    Program Op Res α → List (Event Op ε σ) → Prop
  | done a, h => Q h a
  | call op next, h => J h op ∧ ∀ e s,
      Guarantees J Q (next (exec op e s).2) (h ++ [⟨op, e, s, (exec op e s).1⟩])

variable {exec} {J J' : List (Event Op ε σ) → Op → Prop} {Q Q' : List (Event Op ε σ) → α → Prop}
  {h : List (Event Op ε σ)}

@[simp] theorem guarantees_done (a : α) :
    (done a : Program Op Res α).Guarantees exec J Q h ↔ Q h a := Iff.rfl

theorem Guarantees.mono {p : Program Op Res α} (hp : p.Guarantees exec J Q h)
    (hJ : ∀ h op, J h op → J' h op) (hQ : ∀ h a, Q h a → Q' h a) : p.Guarantees exec J' Q' h := by
  induction p generalizing h with
  | done a => exact hQ h a hp
  | call op next ih => exact ⟨hJ h op hp.1, fun e s => ih _ (hp.2 e s)⟩

/-- The rule of sequential composition. -/
theorem Guarantees.bind {R : List (Event Op ε σ) → β → Prop} {p : Program Op Res α}
    {f : α → Program Op Res β} (hp : p.Guarantees exec J Q h)
    (hf : ∀ h' a, Q h' a → (f a).Guarantees exec J R h') : (p >>= f).Guarantees exec J R h := by
  induction p generalizing h with
  | done a => exact hf h a hp
  | call op next ih => exact ⟨hp.1, fun e s => ih _ (hp.2 e s)⟩

theorem Guarantees.map {R : List (Event Op ε σ) → β → Prop} {p : Program Op Res α} {f : α → β}
    (hp : p.Guarantees exec J Q h) (hf : ∀ h' a, Q h' a → R h' (f a)) :
    (p.map f).Guarantees exec J R h := by
  induction p generalizing h with
  | done a => exact hf h a hp
  | call op next ih => exact ⟨hp.1, fun e s => ih _ (hp.2 e s)⟩

/-- A program whose operations are known, in the middle of another one: its
history only grows, by such operations. -/
theorem Performs.guarantees {P : Op → Prop} {R : α → Prop} {p : Program Op Res α}
    (hp : p.Performs exec P R)
    (hJ : ∀ evs op, (∀ ev ∈ evs, P ev.op) → P op → J (h ++ evs) op)
    (hQ : ∀ evs a, (∀ ev ∈ evs, P ev.op) → R a → Q (h ++ evs) a) : p.Guarantees exec J Q h := by
  induction p generalizing h with
  | done a =>
      have hnil := hQ [] a (by simp) hp
      rwa [List.append_nil] at hnil
  | call op next ih =>
      have hcall := hJ [] op (by simp) hp.1
      rw [List.append_nil] at hcall
      refine ⟨hcall, fun e s => ih _ (hp.2 e s) ?_ ?_⟩
      · intro evs op' hevs hop'
        rw [List.append_assoc]
        refine hJ _ op' ?_ hop'
        simpa using ⟨hp.1, hevs⟩
      · intro evs a hevs ha
        rw [List.append_assoc]
        refine hQ _ a ?_ ha
        simpa using ⟨hp.1, hevs⟩

/-- The history of any program only grows. -/
theorem guarantees_grows (p : Program Op Res α) (h : List (Event Op ε σ)) :
    p.Guarantees exec (fun _ _ => True) (fun h' _ => ∃ evs, h' = h ++ evs) h := by
  induction p generalizing h with
  | done a => exact ⟨[], (List.append_nil h).symm⟩
  | call op next ih =>
      refine ⟨trivial, fun e s => (ih _ _).mono (fun _ _ _ => trivial) ?_⟩
      rintro h' a ⟨evs, rfl⟩
      exact ⟨⟨op, e, s, (exec op e s).1⟩ :: evs, by rw [List.append_assoc]; rfl⟩

end Guarantees

end Program

/-! ## Interleavings -/

namespace Pool

open Program

/-- What a program has ended in, if it has ended. -/
def answer (c : Pool ι Op Res α σ) (i : ι) : Option α :=
  match c.threads i with
  | .done a => some a
  | .call .. => none

theorem threads_of_answer {c : Pool ι Op Res α σ} {i : ι} {a : α} (h : c.answer i = some a) :
    c.threads i = .done a := by
  unfold answer at h
  split at h
  next hthread => rwa [Option.some.inj h] at hthread
  · cases h

variable [DecidableEq ι] (exec : (op : Op) → ε → σ → σ × Res op)

/-- Program `i` performs its next operation; a finished one does nothing. -/
def step (c : Pool ι Op Res α σ) (i : ι) (e : ε) : Pool ι Op Res α σ :=
  match c.threads i with
  | .done _ => c
  | .call op next =>
      ⟨Function.update c.threads i (next (exec op e c.store).2), (exec op e c.store).1⟩

/-- The operation performed in that step. -/
def performed (c : Pool ι Op Res α σ) (i : ι) (e : ε) : List (ι × Event Op ε σ) :=
  match c.threads i with
  | .done _ => []
  | .call op _ => [(i, ⟨op, e, c.store, (exec op e c.store).1⟩)]

/-- The pool after a schedule. -/
def after (c : Pool ι Op Res α σ) : List (ι × ε) → Pool ι Op Res α σ
  | [] => c
  | (i, e) :: schedule => (c.step exec i e).after schedule

/-- Who performed what, in order. -/
def log (c : Pool ι Op Res α σ) : List (ι × ε) → List (ι × Event Op ε σ)
  | [] => []
  | (i, e) :: schedule => c.performed exec i e ++ (c.step exec i e).log schedule

variable {exec} {c : Pool ι Op Res α σ}

@[simp] theorem after_nil : c.after exec [] = c := rfl

@[simp] theorem log_nil : c.log exec [] = [] := rfl

theorem after_append (schedule schedule' : List (ι × ε)) :
    c.after exec (schedule ++ schedule') = (c.after exec schedule).after exec schedule' := by
  induction schedule generalizing c with
  | nil => rfl
  | cons turn schedule ih => exact ih

theorem log_append (schedule schedule' : List (ι × ε)) :
    c.log exec (schedule ++ schedule') =
      c.log exec schedule ++ (c.after exec schedule).log exec schedule' := by
  induction schedule generalizing c with
  | nil => rfl
  | cons turn schedule ih =>
      refine (congrArg _ ih).trans ?_
      rw [← List.append_assoc]
      rfl

/-- Induction over what has happened so far. -/
theorem induction {P : List (ι × Event Op ε σ) → Pool ι Op Res α σ → Prop} (hnil : P [] c)
    (hsnoc : ∀ schedule i e op next, (c.after exec schedule).threads i = .call op next →
      P (c.log exec schedule) (c.after exec schedule) →
      P (c.log exec schedule ++ [(i, ⟨op, e, (c.after exec schedule).store,
          (exec op e (c.after exec schedule).store).1⟩)])
        ⟨Function.update (c.after exec schedule).threads i
            (next (exec op e (c.after exec schedule).store).2),
          (exec op e (c.after exec schedule).store).1⟩)
    (schedule : List (ι × ε)) : P (c.log exec schedule) (c.after exec schedule) := by
  induction schedule using List.reverseRecOn with
  | nil => exact hnil
  | append_singleton schedule turn ih =>
      rcases turn with ⟨i, e⟩
      rw [after_append, log_append]
      show P (_ ++ (performed exec _ i e ++ [])) (step exec _ i e)
      unfold performed step
      cases hthread : (c.after exec schedule).threads i with
      | done a => simpa using ih
      | call op next => exact hsnoc schedule i e op next hthread ih

/-- The operations of one program. -/
def own (i : ι) (log : List (ι × Event Op ε σ)) : List (Event Op ε σ) :=
  (log.filter fun entry => entry.1 = i).map Prod.snd

section Own

variable {i j : ι} {ev : Event Op ε σ} {log log' : List (ι × Event Op ε σ)}

@[simp] theorem own_nil : own i ([] : List (ι × Event Op ε σ)) = [] := rfl

@[simp] theorem own_append : own i (log ++ log') = own i log ++ own i log' := by
  simp [own]

@[simp] theorem own_cons_self : own i ((i, ev) :: log) = ev :: own i log := by
  simp [own]

theorem own_cons_of_ne (h : j ≠ i) : own i ((j, ev) :: log) = own i log := by
  simp [own, h]

@[simp] theorem mem_own : ev ∈ own i log ↔ (i, ev) ∈ log := by
  simp [own]

/-- A fold that the other programs' operations leave alone. -/
theorem foldl_own {f : β → Event Op ε σ → β} (b : β)
    (h : ∀ entry ∈ log, entry.1 ≠ i → ∀ b, f b entry.2 = b) :
    (log.map Prod.snd).foldl f b = (own i log).foldl f b := by
  induction log generalizing b with
  | nil => rfl
  | cons entry log ih =>
      rcases entry with ⟨j, ev⟩
      have hrest := fun b => ih b fun entry hentry => h entry (List.mem_cons_of_mem _ hentry)
      rw [List.map_cons, List.foldl_cons]
      by_cases hj : j = i
      · rw [hj, own_cons_self, List.foldl_cons]
        exact hrest _
      · rw [own_cons_of_ne hj, h (j, ev) (List.mem_cons_self ..) hj]
        exact hrest b

/-- Where an operation of a program stands among all operations. -/
theorem own_eq_append {h h' : List (Event Op ε σ)} (hown : own i log = h ++ ev :: h') :
    ∃ l l', log = l ++ (i, ev) :: l' ∧ own i l = h ∧ own i l' = h' := by
  induction log generalizing h with
  | nil => simp at hown
  | cons entry log ih =>
      rcases entry with ⟨j, ev'⟩
      by_cases hj : j = i
      · subst hj
        rw [own_cons_self] at hown
        cases h with
        | nil =>
            rcases List.cons.inj hown with ⟨rfl, hrest⟩
            exact ⟨[], log, rfl, rfl, hrest⟩
        | cons first h =>
            rcases List.cons.inj hown with ⟨rfl, hrest⟩
            rcases ih hrest with ⟨l, l', rfl, rfl, rfl⟩
            exact ⟨(j, ev') :: l, l', rfl, by simp, rfl⟩
      · rw [own_cons_of_ne hj] at hown
        rcases ih hown with ⟨l, l', rfl, rfl, rfl⟩
        exact ⟨(j, ev') :: l, l', rfl, by rw [own_cons_of_ne hj], rfl⟩

/-- The first element of a kind is where it is. -/
theorem eq_of_first {P : β → Prop} {l l' r r' : List β} {a a' : β}
    (h : l ++ a :: r = l' ++ a' :: r') (ha : P a) (ha' : P a') (hl : ∀ x ∈ l, ¬ P x)
    (hl' : ∀ x ∈ l', ¬ P x) : l = l' ∧ a = a' ∧ r = r' := by
  induction l generalizing l' with
  | nil =>
      cases l' with
      | nil =>
          rcases List.cons.inj h with ⟨rfl, rfl⟩
          exact ⟨rfl, rfl, rfl⟩
      | cons x l' =>
          rcases List.cons.inj h with ⟨rfl, -⟩
          exact absurd ha (hl' _ (List.mem_cons_self ..))
  | cons x l ih =>
      cases l' with
      | nil =>
          rcases List.cons.inj h with ⟨rfl, -⟩
          exact absurd ha' (hl _ (List.mem_cons_self ..))
      | cons x' l' =>
          rcases List.cons.inj h with ⟨rfl, hrest⟩
          rcases ih hrest (fun y hy => hl y (List.mem_cons_of_mem _ hy))
            (fun y hy => hl' y (List.mem_cons_of_mem _ hy)) with ⟨rfl, rfl, rfl⟩
          exact ⟨rfl, rfl, rfl⟩

/-- Two operations of different programs come in one of two orders. -/
theorem own_ordered {ev' : Event Op ε σ} {h h' g g' : List (Event Op ε σ)} (hij : i ≠ j)
    (hi : own i log = h ++ ev :: h') (hj : own j log = g ++ ev' :: g') :
    (∃ l m r, log = l ++ (i, ev) :: (m ++ (j, ev') :: r) ∧ own i l = h ∧ own i (m ++ r) = h' ∧
        own j (l ++ m) = g ∧ own j r = g') ∨
      ∃ l m r, log = l ++ (j, ev') :: (m ++ (i, ev) :: r) ∧ own j l = g ∧ own j (m ++ r) = g' ∧
        own i (l ++ m) = h ∧ own i r = h' := by
  rcases own_eq_append hi with ⟨l, r, hlog, hl, hr⟩
  rcases own_eq_append hj with ⟨k, k', hlog', hk, hk'⟩
  rw [hlog] at hlog'
  rcases List.append_eq_append_iff.mp hlog' with ⟨m, rfl, hm⟩ | ⟨m, rfl, hm⟩
  · -- the first one is `i`'s
    cases m with
    | nil =>
        rcases List.cons.inj hm with ⟨hentry, -⟩
        exact absurd (Prod.mk.inj hentry).1 hij
    | cons entry m =>
        rw [List.cons_append] at hm
        rcases List.cons.inj hm with ⟨rfl, rfl⟩
        refine Or.inl ⟨l, m, k', by rw [hlog], hl, ?_, ?_, hk'⟩
        · rw [own_append, own_cons_of_ne hij.symm, ← own_append] at hr
          exact hr
        · rw [own_append, own_cons_of_ne hij, ← own_append] at hk
          exact hk
  · cases m with
    | nil =>
        rcases List.cons.inj hm with ⟨hentry, -⟩
        exact absurd (Prod.mk.inj hentry).1.symm hij
    | cons entry m =>
        rw [List.cons_append] at hm
        rcases List.cons.inj hm with ⟨rfl, rfl⟩
        refine Or.inr ⟨k, m, r, ?_, hk, ?_, ?_, hr⟩
        · rw [hlog]
          simp
        · rw [own_append, own_cons_of_ne hij, ← own_append] at hk'
          exact hk'
        · rw [own_append, own_cons_of_ne hij.symm, ← own_append] at hl
          exact hl

end Own

/-- All operations together are one execution on the shared store. -/
theorem executes (schedule : List (ι × ε)) :
    Executes exec c.store ((c.log exec schedule).map Prod.snd) (c.after exec schedule).store := by
  refine induction (P := fun log c' => Executes exec c.store (log.map Prod.snd) c'.store)
    (.nil _) (fun schedule i e op next hthread ih => ?_) schedule
  rw [List.map_append]
  exact ih.append (.cons op e _ (.nil _))

/-- Every program keeps to its guarantee in every interleaving: so does what is
left of it, after its own history, and so did each of its operations. -/
theorem guarantees {J : ι → List (Event Op ε σ) → Op → Prop}
    {Q : ι → List (Event Op ε σ) → α → Prop}
    (hc : ∀ i, (c.threads i).Guarantees exec (J i) (Q i) []) (schedule : List (ι × ε)) :
    (∀ i, ((c.after exec schedule).threads i).Guarantees exec (J i) (Q i)
        (own i (c.log exec schedule))) ∧
      ∀ l i ev l', c.log exec schedule = l ++ (i, ev) :: l' → J i (own i l) ev.op := by
  refine induction (P := fun log c' => (∀ i, (c'.threads i).Guarantees exec (J i) (Q i)
      (own i log)) ∧ ∀ l i ev l', log = l ++ (i, ev) :: l' → J i (own i l) ev.op)
    ⟨hc, fun l i ev l' h => by simp at h⟩ ?_ schedule
  rintro schedule i e op next hthread ⟨hthreads, hops⟩
  have hi := hthreads i
  rw [hthread] at hi
  constructor
  · intro j
    by_cases hj : j = i
    · subst hj
      simpa using hi.2 e (c.after exec schedule).store
    · dsimp only
      rw [Function.update_of_ne hj, own_append, own_cons_of_ne (Ne.symm hj)]
      simpa using hthreads j
  · intro l j ev l' h
    rcases List.eq_nil_or_concat l' with rfl | ⟨l'', last, rfl⟩
    · -- the last operation
      rcases List.append_inj' h rfl with ⟨rfl, hlast⟩
      rcases List.cons.inj hlast with ⟨hentry, -⟩
      rcases Prod.mk.inj hentry with ⟨rfl, rfl⟩
      exact hi.1
    · rw [List.concat_eq_append, ← List.cons_append, ← List.append_assoc] at h
      exact hops l j ev l'' (List.append_inj' h rfl).1

end Pool

end Atomic
