import AnatoliaBis.Lib.Digits
import Mathlib.Data.List.Nodup

/-! # Injective functions with given values

A hash function cannot be injective, yet proofs about hash chains and token
stores assume that it is, on the values that occur. To show that such a set of
hypotheses is met by a concrete run one needs a function that takes the real
values at the arguments of that run and is injective everywhere. `extend table`
is one: it answers from the table where it can and spells the argument out
elsewhere, behind a mark no tabulated value starts with.
-/

namespace Tabulated

/-- Six hexadecimal digits for every character. -/
def spell (s : String) : String :=
  String.ofList (s.toList.flatMap fun c => Numeral.chars 16 6 c.toNat)

/-- The mark in front of a spelled-out argument. -/
def mark : Char := '~'

/-- The tabulated value of `s`, or `s` spelled out. -/
def extend (table : List (String × String)) (s : String) : String :=
  match table.lookup s with
  | some v => v
  | none => String.ofList (mark :: (spell s).toList)

theorem toNat_lt (c : Char) : c.toNat < 16 ^ 6 := by
  have h := c.valid
  have hc : c.toNat = c.val.toNat := rfl
  rcases h with h | h <;> omega

theorem spell_injective : Function.Injective spell := by
  have aux : ∀ l l' : List Char,
      l.flatMap (fun c => Numeral.chars 16 6 c.toNat) =
        l'.flatMap (fun c => Numeral.chars 16 6 c.toNat) → l = l' := by
    intro l
    induction l with
    | nil =>
        intro l' h
        cases l' with
        | nil => rfl
        | cons c l' =>
            have hlen := congrArg List.length h
            simp at hlen
            omega
    | cons c l ih =>
        intro l' h
        cases l' with
        | nil =>
            have hlen := congrArg List.length h
            simp at hlen
        | cons c' l' =>
            rw [List.flatMap_cons, List.flatMap_cons] at h
            obtain ⟨hc, hl⟩ := List.append_inj h (by simp)
            have hnat := Numeral.chars_injOn (by omega) (by omega) (toNat_lt c) (toNat_lt c') hc
            rw [ih l' hl, Char.toNat_inj.mp hnat]
  intro s s' h
  exact String.toList_inj.mp (aux _ _ (String.ofList_injective h))

/-- What makes a table usable: different values, none starting with the mark. -/
structure Table (table : List (String × String)) : Prop where
  nodup : (table.map (·.2)).Nodup
  unmarked : ∀ p ∈ table, p.2.toList.head? ≠ some mark

theorem mem_of_lookup {table : List (String × String)} {s v : String}
    (h : table.lookup s = some v) : (s, v) ∈ table := by
  induction table with
  | nil => simp at h
  | cons p ps ih =>
      obtain ⟨k, w⟩ := p
      rw [List.lookup_cons] at h
      split at h
      next hk =>
        have hk' : s = k := by simpa using hk
        simp [hk', Option.some.inj h]
      next => exact List.mem_cons_of_mem _ (ih h)

theorem extend_cases (table : List (String × String)) (s : String) :
    (∃ v, (s, v) ∈ table ∧ extend table s = v) ∨
      extend table s = String.ofList (mark :: (spell s).toList) := by
  unfold extend
  cases h : table.lookup s with
  | some v => exact Or.inl ⟨v, mem_of_lookup h, rfl⟩
  | none => exact Or.inr rfl

/-- **The extension is injective.** -/
theorem extend_injective {table : List (String × String)} (ht : Table table) :
    Function.Injective (extend table) := by
  intro s s' h
  have marked : ∀ {v t : String}, (v, t) ∈ table → t ≠ String.ofList (mark :: (spell s).toList) ∧
      t ≠ String.ofList (mark :: (spell s').toList) := by
    intro v t hv
    have hhead := ht.unmarked _ hv
    constructor <;> rintro rfl <;> simp at hhead
  rcases extend_cases table s with ⟨v, hv, hs⟩ | hs <;>
    rcases extend_cases table s' with ⟨v', hv', hs'⟩ | hs'
  · -- the same tabulated value: the same entry
    rw [hs, hs'] at h
    subst h
    exact congrArg Prod.fst (List.inj_on_of_nodup_map ht.nodup hv hv' rfl)
  · exact absurd (hs ▸ hs' ▸ h) (marked hv).2
  · exact absurd (hs' ▸ hs ▸ h.symm) (marked hv').1
  · rw [hs, hs'] at h
    have htails := (List.cons.inj (String.ofList_injective h)).2
    exact spell_injective (String.toList_inj.mp htails)

/-- A value that is not tabulated and does not start with the mark is missed. -/
theorem extend_ne {table : List (String × String)} {v : String}
    (hv : ∀ p ∈ table, p.2 ≠ v) (hm : v.toList.head? ≠ some mark) (s : String) :
    extend table s ≠ v := by
  rcases extend_cases table s with ⟨w, hw, hs⟩ | hs
  · exact fun h => hv _ hw (hs.symm.trans h)
  · rintro rfl
    simp [hs] at hm

theorem mem_spell {s : String} {c : Char} (h : c ∈ (spell s).toList) :
    ∃ d < 16, c = d.digitChar := by
  simp only [spell, String.toList_ofList, List.mem_flatMap] at h
  obtain ⟨a, -, ha⟩ := h
  obtain ⟨d, hd, rfl⟩ := List.mem_map.mp ha
  exact ⟨d, Numeral.digits_lt (by omega) _ _ d hd, rfl⟩

/-- A character that is neither the mark nor a hexadecimal digit nor tabulated
does not occur in the values. -/
theorem notMem_extend {table : List (String × String)} {c : Char} (hc : c ≠ mark)
    (hdigit : ∀ d < 16, d.digitChar ≠ c) (ht : ∀ p ∈ table, c ∉ p.2.toList) (s : String) :
    c ∉ (extend table s).toList := by
  rcases extend_cases table s with ⟨w, hw, hs⟩ | hs
  · exact hs ▸ ht _ hw
  · rw [hs]
    simp only [String.toList_ofList, List.mem_cons, not_or]
    refine ⟨hc, ?_⟩
    intro h
    obtain ⟨d, hd, rfl⟩ := mem_spell h
    exact hdigit d hd rfl

end Tabulated
