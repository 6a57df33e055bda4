import AnatoliaBis.Lib.Embed

/-! # Complete mediation

A check in front of a program mediates all of it: until an operation of its own has passed
the check, the program performs only operations that are free of it, and it ends without one
only in a refusal. What stands behind the check needs no look.
-/

namespace Atomic

variable {ι Op Op' ε σ σ' α β : Type} {Res : Op → Type} {Res' : Op' → Type}

namespace Program

variable {exec : (op : Op) → ε → σ → σ × Res op}

/-- Some operation has passed the check. -/
def Passed (passes : Event Op ε σ → Prop) (h : List (Event Op ε σ)) : Prop :=
  ∃ ev ∈ h, passes ev

/-- After the history `h` the program is mediated by the check. -/
def Mediated (exec : (op : Op) → ε → σ → σ × Res op) (free : Op → Prop)
    (passes : Event Op ε σ → Prop) (refuses : α → Prop) (p : Program Op Res α)
    (h : List (Event Op ε σ)) : Prop :=
  p.Guarantees exec (fun h op => free op ∨ Passed passes h)
    (fun h a => refuses a ∨ Passed passes h) h

section Mediated

variable {free : Op → Prop} {passes : Event Op ε σ → Prop} {refuses : α → Prop}
  {h : List (Event Op ε σ)}

theorem Passed.append (hpassed : Passed passes h) (h' : List (Event Op ε σ)) :
    Passed passes (h ++ h') := by
  rcases hpassed with ⟨ev, hev, hpasses⟩
  exact ⟨ev, List.mem_append_left _ hev, hpasses⟩

/-- Behind the check everything is allowed. -/
theorem mediated_of_passed (hpassed : Passed passes h) (p : Program Op Res α) :
    p.Mediated exec free passes refuses h := by
  induction p generalizing h with
  | done a => exact Or.inr hpassed
  | call op next ih => exact ⟨Or.inr hpassed, fun e s => ih _ (hpassed.append _)⟩

theorem mediated_done {a : α} (ha : refuses a) :
    (done a : Program Op Res α).Mediated exec free passes refuses h :=
  Or.inl ha

/-- Where everything is free there is nothing to mediate. -/
theorem mediated_of_free (hfree : ∀ op, free op) (hrefuses : ∀ a, refuses a)
    (p : Program Op Res α) : p.Mediated exec free passes refuses h := by
  induction p generalizing h with
  | done a => exact Or.inl (hrefuses a)
  | call op next ih => exact ⟨Or.inl (hfree op), fun e s => ih _⟩

/-- More operations before it change nothing. -/
theorem Mediated.prepend {p : Program Op Res α}
    (hp : p.Mediated exec free passes refuses h) (before : List (Event Op ε σ)) :
    p.Mediated exec free passes refuses (before ++ h) := by
  have hpassed : ∀ {h}, Passed passes h → Passed passes (before ++ h) := by
    rintro h ⟨ev, hev, hpasses⟩
    exact ⟨ev, List.mem_append_right _ hev, hpasses⟩
  induction p generalizing h with
  | done a => exact hp.imp id hpassed
  | call op next ih =>
      refine ⟨hp.1.imp id hpassed, fun e s => ?_⟩
      rw [List.append_assoc]
      exact ih _ (hp.2 e s)

/-- A check in front of a program. -/
theorem Mediated.bind {refuses' : β → Prop} {p : Program Op Res β} {f : β → Program Op Res α}
    (hp : p.Mediated exec free passes refuses' h)
    (hf : ∀ b h, refuses' b → (f b).Mediated exec free passes refuses h) :
    (p >>= f).Mediated exec free passes refuses h := by
  apply Guarantees.bind hp
  rintro h b (hrefuses | hpassed)
  · exact hf b h hrefuses
  · exact mediated_of_passed hpassed _

theorem Mediated.map {refuses' : β → Prop} {p : Program Op Res α} {f : α → β}
    (hp : p.Mediated exec free passes refuses h) (hf : ∀ a, refuses a → refuses' (f a)) :
    (p.map f).Mediated exec free passes refuses' h := by
  apply Guarantees.map hp
  rintro h a (hrefuses | hpassed)
  · exact Or.inl (hf a hrefuses)
  · exact Or.inr hpassed

end Mediated

end Program

namespace Part

open Program

variable {inj : Op → Op'} {out : ∀ op, Res' (inj op) → Res op}
  {exec : (op : Op) → ε → σ → σ × Res op} {exec' : (op : Op') → ε → σ' → σ' × Res' op}

theorem Sees.exists {p : Part inj out exec exec'} {h : List (Event Op ε σ)}
    {h' : List (Event Op' ε σ')} (hseen : List.Forall₂ p.Sees h h') {ev : Event Op ε σ}
    (hev : ev ∈ h) : ∃ ev' ∈ h', p.Sees ev ev' := by
  induction hseen with
  | nil => cases hev
  | cons hsees _ ih =>
      rcases List.mem_cons.mp hev with rfl | hev
      · exact ⟨_, List.mem_cons_self .., hsees⟩
      · rcases ih hev with ⟨ev', hev', hsees'⟩
        exact ⟨ev', List.mem_cons_of_mem _ hev', hsees'⟩

/-- A program that is mediated on its own store is mediated on the larger one. -/
theorem mediated_embed (p : Part inj out exec exec') {free : Op → Prop} {free' : Op' → Prop}
    {passes : Event Op ε σ → Prop} {passes' : Event Op' ε σ' → Prop} {refuses : α → Prop}
    {prog : Program Op Res α} (hprog : prog.Mediated exec free passes refuses [])
    (hfree : ∀ op, free op → free' (inj op))
    (hpasses : ∀ ev ev', p.Sees ev ev' → passes ev → passes' ev') :
    (prog.embed inj out).Mediated exec' free' passes' refuses [] := by
  have hpassed : ∀ h h', List.Forall₂ p.Sees h h' → Passed passes h → Passed passes' h' := by
    rintro h h' hseen ⟨ev, hev, hev'⟩
    rcases Sees.exists hseen hev with ⟨ev', hmem, hsees⟩
    exact ⟨ev', hmem, hpasses ev ev' hsees hev'⟩
  apply p.guarantees_embed hprog .nil
  · intro h h' op hseen hop
    exact hop.imp (hfree op) (hpassed h h' hseen)
  · intro h h' a hseen ha
    exact ha.imp id (hpassed h h' hseen)

end Part

namespace Pool

open Program

variable [DecidableEq ι] {exec : (op : Op) → ε → σ → σ × Res op} {c : Pool ι Op Res α σ}
  {free : ι → Op → Prop} {passes : ι → Event Op ε σ → Prop} {refuses : ι → α → Prop}

/-- Mediated programs side by side: every operation that is not free is one of a program that
has passed its check, and so is every answer that is no refusal. -/
theorem mediated
    (hc : ∀ i, (c.threads i).Mediated exec (free i) (passes i) (refuses i) [])
    (schedule : List (ι × ε)) :
    (∀ l i ev l', c.log exec schedule = l ++ (i, ev) :: l' →
      free i ev.op ∨ Passed (passes i) (own i l)) ∧
    ∀ i a, (c.after exec schedule).answer i = some a →
      refuses i a ∨ Passed (passes i) (own i (c.log exec schedule)) := by
  have hpool := guarantees hc schedule
  constructor
  · exact hpool.2
  · intro i a ha
    have hthread := hpool.1 i
    rw [threads_of_answer ha] at hthread
    exact hthread

end Pool

end Atomic
