import Mathlib.Data.List.Basic

/-! # Rows that a table gains and rows that change

A table is a list of rows; statements rewrite rows in their place and append new
ones. `Changes.Within P` says that only rows satisfying `P` are the outcome of a
change. It composes along the statements of a program, and it can be read back from
what a single statement did.
-/

namespace Changes

variable {α : Type}

/-- Rows are rewritten in their place or appended, none is removed, and each one
rewritten or appended satisfies `P`. -/
def Within (P : α → Prop) : List α → List α → Prop
  | [], new => ∀ b ∈ new, P b
  | _ :: _, [] => False
  | a :: old, b :: new => (b = a ∨ P b) ∧ Within P old new

variable {P Q : α → Prop} {old mid new added rows : List α} {f : α → α}

@[simp] theorem within_nil : Within P [] new ↔ ∀ b ∈ new, P b := by
  unfold Within
  rfl

@[simp] theorem within_cons {a b : α} :
    Within P (a :: old) (b :: new) ↔ (b = a ∨ P b) ∧ Within P old new := Iff.rfl

theorem Within.refl (P : α → Prop) (rows : List α) : Within P rows rows := by
  induction rows with
  | nil => simp
  | cons a rows ih => exact ⟨Or.inl rfl, ih⟩

theorem Within.mono (h : Within P old new) (hPQ : ∀ b, P b → Q b) : Within Q old new := by
  induction old generalizing new with
  | nil => exact fun b hb => hPQ b (h b hb)
  | cons a old ih =>
      cases new with
      | nil => exact h
      | cons b new => exact ⟨h.1.imp id (hPQ b), ih h.2⟩

/-- Nothing else than `P` comes out of rows that all satisfy it. -/
theorem Within.all (h : Within P old new) (hold : ∀ a ∈ old, P a) : ∀ b ∈ new, P b := by
  induction old generalizing new with
  | nil => exact h
  | cons a old ih =>
      cases new with
      | nil => exact h.elim
      | cons b new =>
          rcases List.forall_mem_cons.mp hold with ⟨ha, hrest⟩
          refine List.forall_mem_cons.mpr ⟨?_, ih h.2 hrest⟩
          rcases h.1 with rfl | hb
          · exact ha
          · exact hb

theorem Within.trans (h : Within P old mid) (h' : Within P mid new) : Within P old new := by
  induction old generalizing mid new with
  | nil => exact h'.all h
  | cons a old ih =>
      cases mid with
      | nil => exact h.elim
      | cons m mid =>
          cases new with
          | nil => exact h'.elim
          | cons b new =>
              refine ⟨?_, ih h.2 h'.2⟩
              rcases h'.1 with rfl | hb
              · exact h.1
              · exact Or.inr hb

/-- Every row is an old one or satisfies `P`. -/
theorem Within.mem (h : Within P old new) : ∀ b ∈ new, b ∈ old ∨ P b := by
  induction old generalizing new with
  | nil => exact fun b hb => Or.inr (h b hb)
  | cons a old ih =>
      cases new with
      | nil => exact h.elim
      | cons b new =>
          intro c hc
          rcases List.mem_cons.mp hc with rfl | hc
          · rcases h.1 with rfl | hP
            · exact Or.inl (List.mem_cons_self ..)
            · exact Or.inr hP
          · exact (ih h.2 c hc).imp (List.mem_cons_of_mem a) id

/-- Where no row may change, none does. -/
theorem within_false : Within (fun _ : α => False) old new ↔ new = old := by
  induction old generalizing new with
  | nil => simp [List.eq_nil_iff_forall_not_mem]
  | cons a old ih =>
      cases new with
      | nil => simp [Within]
      | cons b new => simp [ih]

/-! ## What a single statement does -/

theorem within_append : Within P rows (rows ++ added) ↔ ∀ b ∈ added, P b := by
  induction rows with
  | nil => simp
  | cons a rows ih =>
      rw [List.cons_append, within_cons, ih]
      exact and_iff_right (Or.inl rfl)

theorem within_map : Within P rows (rows.map f) ↔ ∀ a ∈ rows, f a = a ∨ P (f a) := by
  induction rows with
  | nil => simp
  | cons a rows ih =>
      rw [List.map_cons, within_cons, ih, List.forall_mem_cons]

end Changes
