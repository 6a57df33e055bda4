import Mathlib.Data.List.Basic
import Mathlib.Tactic.SplitIfs

/-! # Replacing letters by words

Letters of a text replaced by words, one letter after the other over the whole text. Where
no word holds a letter that is replaced later, that is the same as replacing every letter by
its own word (`replaceAll_eq`). A code whose words are never prefixes of each other can be
read back.
-/

namespace Escape

variable {α β : Type}

section Replace

variable [DecidableEq α]

/-- Every `c` of the text replaced by `word`. -/
def replace (c : α) (word : List α) (text : List α) : List α :=
  text.flatMap fun x => if x = c then word else [x]

/-- The replacements of a table, one after the other. -/
def replaceAll : List (α × List α) → List α → List α
  | [], text => text
  | entry :: table, text => replaceAll table (replace entry.1 entry.2 text)

/-- What a letter alone becomes. -/
def word : List (α × List α) → α → List α
  | [], x => [x]
  | entry :: table, x => if x = entry.1 then entry.2 else word table x

/-- No word holds a letter that is replaced after it. -/
def Settled (table : List (α × List α)) : Prop := table.Pairwise fun e e' => e'.1 ∉ e.2

instance (table : List (α × List α)) : Decidable (Settled table) :=
  inferInstanceAs (Decidable (table.Pairwise fun e e' => e'.1 ∉ e.2))

variable {table : List (α × List α)} {x c : α}

/-- A letter that is not replaced stays. -/
theorem word_of_notMem (h : ∀ e ∈ table, e.1 ≠ x) : word table x = [x] := by
  induction table with
  | nil => rfl
  | cons entry table ih =>
      have hne : x ≠ entry.1 := (h entry List.mem_cons_self).symm
      have hrest : ∀ e ∈ table, e.1 ≠ x := fun e he => h e (List.mem_cons_of_mem _ he)
      unfold word
      rw [if_neg hne]
      exact ih hrest

/-- A letter becomes a word of the table, or stays. -/
theorem word_cases (table : List (α × List α)) (x : α) :
    (∃ e ∈ table, e.1 = x ∧ word table x = e.2) ∨
      (∀ e ∈ table, e.1 ≠ x) ∧ word table x = [x] := by
  induction table with
  | nil => exact Or.inr ⟨fun e he => absurd he List.not_mem_nil, rfl⟩
  | cons entry table ih =>
      unfold word
      split_ifs with hx
      · exact Or.inl ⟨entry, List.mem_cons_self, hx.symm, rfl⟩
      · rcases ih with ⟨e, he, hkey, hword⟩ | ⟨hkeys, hword⟩
        · exact Or.inl ⟨e, List.mem_cons_of_mem _ he, hkey, hword⟩
        · right
          constructor
          · intro e he
            rcases List.mem_cons.mp he with heq | he
            · rw [heq]
              exact fun h => hx h.symm
            · exact hkeys e he
          · exact hword

/-- A text without letters of the table is left as it is. -/
theorem flatMap_word_of_notMem {text : List α} (h : ∀ e ∈ table, e.1 ∉ text) :
    text.flatMap (word table) = text := by
  have hsame : text.flatMap (word table) = text.flatMap fun x => [x] := by
    apply List.flatMap_congr
    intro x hx
    apply word_of_notMem
    intro e he hkey
    exact h e he (hkey ▸ hx)
  rw [hsame, List.flatMap_singleton']

/-- **One after the other or all at once.** -/
theorem replaceAll_eq (h : Settled table) (text : List α) :
    replaceAll table text = text.flatMap (word table) := by
  induction table generalizing text with
  | nil =>
      have hsame : text.flatMap (word []) = text := List.flatMap_singleton' text
      exact hsame.symm
  | cons entry table ih =>
      have hsettled := List.pairwise_cons.mp h
      unfold replaceAll
      rw [ih hsettled.2]
      unfold replace
      rw [List.flatMap_assoc]
      apply List.flatMap_congr
      intro x _
      conv_rhs => unfold word
      split_ifs with hx
      · -- the later replacements find nothing in the word
        exact flatMap_word_of_notMem fun e he => hsettled.1 e he
      · exact List.flatMap_singleton _ _

/-- A replaced letter is left only where a word brings it back. -/
theorem notMem_flatMap_word (hkey : ∃ e ∈ table, e.1 = c) (hwords : ∀ e ∈ table, c ∉ e.2)
    (text : List α) : c ∉ text.flatMap (word table) := by
  intro hmem
  obtain ⟨x, -, hx⟩ := List.mem_flatMap.mp hmem
  rcases word_cases table x with ⟨e, he, -, hword⟩ | ⟨hkeys, hword⟩
  · rw [hword] at hx
    exact hwords e he hx
  · rw [hword, List.mem_singleton] at hx
    obtain ⟨e, he, hc⟩ := hkey
    exact hkeys e he (hc.trans hx)

end Replace

/-! ## Reading back -/

section Codes

variable {f : α → List β}

/-- An occurrence in the coded text lies in the word of one letter, and what follows it
there follows it in the text. -/
theorem exists_word_of_flatMap_eq {text : List α} {before after : List β} {y : β}
    (h : text.flatMap f = before ++ y :: after) :
    ∃ x ∈ text, ∃ start rest, f x = start ++ y :: rest ∧ rest <+: after := by
  induction text generalizing before with
  | nil => simp at h
  | cons x text ih =>
      rw [List.flatMap_cons] at h
      rcases List.append_eq_append_iff.mp h with ⟨mid, hmid, hrest⟩ | ⟨mid, hmid, hrest⟩
      · -- the occurrence comes after the first word
        obtain ⟨x', hx', start, rest, hword, hprefix⟩ := ih hrest
        exact ⟨x', List.mem_cons_of_mem _ hx', start, rest, hword, hprefix⟩
      · cases mid with
        | nil =>
            have hnext : text.flatMap f = [] ++ y :: after := hrest.symm
            obtain ⟨x', hx', start, rest, hword, hprefix⟩ := ih hnext
            exact ⟨x', List.mem_cons_of_mem _ hx', start, rest, hword, hprefix⟩
        | cons z mid =>
            obtain ⟨hz, htail⟩ := List.cons.inj hrest
            refine ⟨x, List.mem_cons_self, before, mid, ?_, ?_⟩
            · rw [hmid, hz]
            · exact ⟨text.flatMap f, htail.symm⟩

/-- The word of one letter is a prefix of that of another only if they are the same. -/
def PrefixFree (f : α → List β) : Prop := ∀ x y, f x <+: f y → x = y

theorem flatMap_injective (hf : PrefixFree f) (hne : ∀ x, f x ≠ []) :
    Function.Injective (List.flatMap f) := by
  intro text
  induction text with
  | nil =>
      intro text' h
      cases text' with
      | nil => rfl
      | cons y text' =>
          have hnil : f y ++ text'.flatMap f = [] := h.symm
          exact absurd (List.append_eq_nil_iff.mp hnil).1 (hne y)
  | cons x text ih =>
      intro text' h
      cases text' with
      | nil =>
          have hnil : f x ++ text.flatMap f = [] := h
          exact absurd (List.append_eq_nil_iff.mp hnil).1 (hne x)
      | cons y text' =>
          have hwords : f x ++ text.flatMap f = f y ++ text'.flatMap f := h
          -- of two words that begin the same text one is a prefix of the other
          have hsame : x = y := by
            rcases List.prefix_or_prefix_of_prefix (List.prefix_append (f x) (text.flatMap f))
              (hwords ▸ List.prefix_append (f y) (text'.flatMap f)) with hpre | hpre
            · exact hf x y hpre
            · exact (hf y x hpre).symm
          rw [hsame] at hwords ⊢
          rw [ih (List.append_cancel_left hwords)]

end Codes

end Escape
