import AnatoliaBis.Lib.Pool
import Mathlib.Data.List.Forall2

/-! # A part of the operations

A program written for one store also runs on a larger store of which that one is
a part: its operations are some of the larger store's, and they leave the rest
alone. What is known of the program alone carries over.
-/

namespace Atomic

variable {Op Op' ε σ σ' α β : Type} {Res : Op → Type} {Res' : Op' → Type}

namespace Program

/-- The program, its operations read as operations of the larger store. -/
def embed (inj : Op → Op') (out : ∀ op, Res' (inj op) → Res op) :
    Program Op Res α → Program Op' Res' α
  | done a => done a
  | call op next => call (inj op) fun r => (next (out op r)).embed inj out

theorem embed_bind (inj : Op → Op') (out : ∀ op, Res' (inj op) → Res op) (p : Program Op Res α)
    (f : α → Program Op Res β) :
    (p >>= f).embed inj out = p.embed inj out >>= fun a => (f a).embed inj out := by
  induction p with
  | done a => rfl
  | call op next ih => exact congrArg _ (funext fun r => ih _)

theorem embed_map (inj : Op → Op') (out : ∀ op, Res' (inj op) → Res op) (f : α → β)
    (p : Program Op Res α) : (p.map f).embed inj out = (p.embed inj out).map f := by
  induction p with
  | done a => rfl
  | call op next ih => exact congrArg _ (funext fun r => ih _)

end Program

/-- A store with its operations as a part of a larger one. -/
structure Part (inj : Op → Op') (out : ∀ op, Res' (inj op) → Res op)
    (exec : (op : Op) → ε → σ → σ × Res op) (exec' : (op : Op') → ε → σ' → σ' × Res' op) where
  get : σ' → σ
  put : σ → σ' → σ'
  get_put : ∀ a s, get (put a s) = a
  put_put : ∀ a b s, put a (put b s) = put a s
  put_get : ∀ s, put (get s) s = s
  /-- An operation of the part changes that part only, -/
  after : ∀ op e s, (exec' (inj op) e s).1 = put (exec op e (get s)).1 s
  /-- and depends on nothing else. -/
  result : ∀ op e s, out op (exec' (inj op) e s).2 = (exec op e (get s)).2

namespace Part

open Program

variable {inj : Op → Op'} {out : ∀ op, Res' (inj op) → Res op}
  {exec : (op : Op) → ε → σ → σ × Res op} {exec' : (op : Op') → ε → σ' → σ' × Res' op}
  (p : Part inj out exec exec')

theorem run_embed (prog : Program Op Res α) (ω : Nat → ε) (s : σ') :
    (prog.embed inj out).run exec' ω s =
      ((prog.run exec ω (p.get s)).1, p.put (prog.run exec ω (p.get s)).2 s) := by
  induction prog generalizing ω s with
  | done a => simp [embed, p.put_get]
  | call op next ih =>
      simp only [embed, run_call, p.result]
      rw [ih, p.after, p.get_put, p.put_put]

include p in
theorem performs_embed {P : Op → Prop} {P' : Op' → Prop} {R : α → Prop} {prog : Program Op Res α}
    (hprog : prog.Performs exec P R) (hP : ∀ op, P op → P' (inj op)) :
    (prog.embed inj out).Performs exec' P' R := by
  induction prog with
  | done a => exact hprog
  | call op next ih =>
      refine ⟨hP op hprog.1, fun e s => ?_⟩
      dsimp only
      rw [p.result]
      exact ih _ (hprog.2 e (p.get s))

/-- The same operation, seen in the part and in the whole. -/
structure Sees (ev : Event Op ε σ) (ev' : Event Op' ε σ') : Prop where
  op : ev'.op = inj ev.op
  env : ev'.env = ev.env
  before : p.get ev'.before = ev.before
  after : p.get ev'.after = ev.after

/-- What a program keeps to on its own store, it keeps to on the larger one, whatever is done
to the rest of that. -/
theorem guarantees_embed {J : List (Event Op ε σ) → Op → Prop} {Q : List (Event Op ε σ) → α → Prop}
    {J' : List (Event Op' ε σ') → Op' → Prop} {Q' : List (Event Op' ε σ') → α → Prop}
    {prog : Program Op Res α} {h : List (Event Op ε σ)} {h' : List (Event Op' ε σ')}
    (hprog : prog.Guarantees exec J Q h) (hseen : List.Forall₂ p.Sees h h')
    (hJ : ∀ h h' op, List.Forall₂ p.Sees h h' → J h op → J' h' (inj op))
    (hQ : ∀ h h' a, List.Forall₂ p.Sees h h' → Q h a → Q' h' a) :
    (prog.embed inj out).Guarantees exec' J' Q' h' := by
  induction prog generalizing h h' with
  | done a => exact hQ h h' a hseen hprog
  | call op next ih =>
      refine ⟨hJ h h' op hseen hprog.1, fun e s => ?_⟩
      dsimp only
      rw [p.result]
      apply ih _ (hprog.2 e (p.get s))
      have hlast : p.Sees ⟨op, e, p.get s, (exec op e (p.get s)).1⟩
          ⟨inj op, e, s, (exec' (inj op) e s).1⟩ := by
        constructor
        · rfl
        · rfl
        · rfl
        · show p.get (exec' (inj op) e s).1 = _
          rw [p.after, p.get_put]
      exact List.rel_append hseen (.cons hlast .nil)

end Part

end Atomic
