import AnatoliaBis.Lib.Select
import Mathlib.Data.List.Dedup
import Mathlib.Data.List.MinMax

/-! # Best scores, and the first of them

Rows have a key and a score. The best score of each key comes from a fold over a map,
or, as a least distance, from `SELECT DISTINCT ON (key) … ORDER BY key, distance`. Two
rankings cut off after `k` entries are the same up to ties if the scores are, and so is
whatever scores more than some entry.
-/

namespace TopK

variable {α κ σ : Type}

/-! ## Best scores -/

/-- `x` is the best score among the rows of the key `c`. -/
def IsBest [LE σ] (key : α → κ) (score : α → σ) (rows : List α) (c : κ) (x : σ) : Prop :=
  (∃ row ∈ rows, key row = c ∧ score row = x) ∧ ∀ row ∈ rows, key row = c → score row ≤ x

section BestScores

variable [LinearOrder σ] {key : α → κ} {score : α → σ} {rows : List α} {c : κ} {x : σ}

theorem IsBest.unique {y : σ} (hx : IsBest key score rows c x) (hy : IsBest key score rows c y) :
    x = y := by
  rcases hx with ⟨⟨row, hrow, hc, rfl⟩, hle⟩
  rcases hy with ⟨⟨row', hrow', hc', rfl⟩, hle'⟩
  exact le_antisymm (hle' row hrow hc) (hle row' hrow' hc')

/-- A key of some row has a best score. -/
theorem exists_isBest (score : α → σ) {row : α} (hrow : row ∈ rows) (hc : key row = c) :
    ∃ x, IsBest key score rows c x := by
  induction rows generalizing row with
  | nil => cases hrow
  | cons first rows ih =>
      by_cases hothers : ∃ other ∈ rows, key other = c
      · rcases hothers with ⟨other, hother, hkey⟩
        rcases ih hother hkey with ⟨z, ⟨best, hbest, hbestKey, rfl⟩, hle⟩
        by_cases hfirst : key first = c ∧ score best < score first
        · refine ⟨score first, ⟨first, List.mem_cons_self .., hfirst.1, rfl⟩, ?_⟩
          intro other' hmem hkey'
          rcases List.mem_cons.mp hmem with rfl | hmem
          · exact le_rfl
          · exact (hle other' hmem hkey').trans hfirst.2.le
        · refine ⟨score best, ⟨best, List.mem_cons_of_mem _ hbest, hbestKey, rfl⟩, ?_⟩
          intro other' hmem hkey'
          rcases List.mem_cons.mp hmem with rfl | hmem
          · exact not_lt.mp fun h => hfirst ⟨hkey', h⟩
          · exact hle other' hmem hkey'
      · have honly : ∀ other ∈ first :: rows, key other = c → other = first := by
          intro other hother hkey
          rcases List.mem_cons.mp hother with rfl | hother
          · rfl
          · exact absurd ⟨other, hother, hkey⟩ hothers
        have hfirst := honly row hrow hc
        subst hfirst
        refine ⟨score row, ⟨row, hrow, hc, rfl⟩, fun other hother hkey => ?_⟩
        rw [honly other hother hkey]

/-- Whether a row of that key comes last. -/
theorem isBest_snoc {row : α} : IsBest key score (rows ++ [row]) c x ↔
    (key row ≠ c ∧ IsBest key score rows c x) ∨
      (key row = c ∧ (((∀ other ∈ rows, key other ≠ c) ∧ x = score row) ∨
        ∃ z, IsBest key score rows c z ∧ x = max z (score row))) := by
  by_cases hc : key row = c
  · constructor
    · rintro ⟨⟨best, hbest, hbestKey, rfl⟩, hle⟩
      refine Or.inr ⟨hc, ?_⟩
      have hlast := hle row (List.mem_append_right _ (List.mem_singleton_self _)) hc
      by_cases hothers : ∃ other ∈ rows, key other = c
      · rcases hothers with ⟨other, hother, hkey⟩
        rcases exists_isBest score hother hkey with ⟨z, hz⟩
        refine Or.inr ⟨z, hz, le_antisymm ?_ (max_le ?_ hlast)⟩
        · rcases List.mem_append.mp hbest with hbest | hbest
          · exact (hz.2 best hbest hbestKey).trans (le_max_left _ _)
          · rw [List.mem_singleton.mp hbest]
            exact le_max_right _ _
        · rcases hz.1 with ⟨row', hrow', hkey', rfl⟩
          exact hle row' (List.mem_append_left _ hrow') hkey'
      · refine Or.inl ⟨fun other hother hkey => hothers ⟨other, hother, hkey⟩, ?_⟩
        rcases List.mem_append.mp hbest with hbest | hbest
        · exact absurd ⟨best, hbest, hbestKey⟩ hothers
        · rw [List.mem_singleton.mp hbest]
    · rintro (⟨hne, -⟩ | ⟨-, ⟨hnone, rfl⟩ | ⟨z, ⟨⟨best, hbest, hbestKey, rfl⟩, hle⟩, rfl⟩⟩)
      · exact absurd hc hne
      · refine ⟨⟨row, List.mem_append_right _ (List.mem_singleton_self _), hc, rfl⟩, ?_⟩
        intro other hother hkey
        rcases List.mem_append.mp hother with hother | hother
        · exact absurd hkey (hnone other hother)
        · rw [List.mem_singleton.mp hother]
      · constructor
        · rcases le_total (score best) (score row) with h | h
          · exact ⟨row, List.mem_append_right _ (List.mem_singleton_self _), hc,
              (max_eq_right h).symm⟩
          · exact ⟨best, List.mem_append_left _ hbest, hbestKey, (max_eq_left h).symm⟩
        · intro other hother hkey
          rcases List.mem_append.mp hother with hother | hother
          · exact (hle other hother hkey).trans (le_max_left _ _)
          · rw [List.mem_singleton.mp hother]
            exact le_max_right _ _
  · have hmem : ∀ other ∈ rows ++ [row], key other = c → other ∈ rows := by
      intro other hother hkey
      rcases List.mem_append.mp hother with hother | hother
      · exact hother
      · rw [List.mem_singleton.mp hother] at hkey
        exact absurd hkey hc
    constructor
    · rintro ⟨⟨best, hbest, hbestKey, rfl⟩, hle⟩
      refine Or.inl ⟨hc, ⟨best, hmem best hbest hbestKey, hbestKey, rfl⟩, ?_⟩
      exact fun other hother => hle other (List.mem_append_left _ hother)
    · rintro (⟨-, ⟨best, hbest, hbestKey, rfl⟩, hle⟩ | ⟨hkey, -⟩)
      · refine ⟨⟨best, List.mem_append_left _ hbest, hbestKey, rfl⟩, ?_⟩
        exact fun other hother hkey => hle other (hmem other hother hkey) hkey
      · exact absurd hkey hc

variable [DecidableEq κ]

/-- `entry(c).and_modify(…).or_insert(x)`: the larger score stays. -/
def consider (best : List (κ × σ)) (c : κ) (x : σ) : List (κ × σ) :=
  if c ∈ best.map Prod.fst then best.map fun e => if e.1 = c ∧ e.2 < x then (c, x) else e
  else best ++ [(c, x)]

/-- The map after all rows. -/
def bestScores (key : α → κ) (score : α → σ) (rows : List α) : List (κ × σ) :=
  rows.foldl (fun best row => consider best (key row) (score row)) []

theorem bestScores_snoc (row : α) : bestScores key score (rows ++ [row]) =
    consider (bestScores key score rows) (key row) (score row) := by
  unfold bestScores
  rw [List.foldl_append]
  rfl

theorem keys_consider {best : List (κ × σ)} :
    (consider best c x).map Prod.fst =
      if c ∈ best.map Prod.fst then best.map Prod.fst else best.map Prod.fst ++ [c] := by
  unfold consider
  split_ifs with hc
  · rw [List.map_map]
    apply List.map_congr_left
    intro e _
    dsimp only [Function.comp_apply]
    split_ifs with he
    · exact he.1.symm
    · rfl
  · rw [List.map_append]
    rfl

/-- Each key has one entry. -/
theorem nodup_bestScores : ((bestScores key score rows).map Prod.fst).Nodup := by
  induction rows using List.reverseRecOn with
  | nil => exact List.nodup_nil
  | append_singleton rows row ih =>
      rw [bestScores_snoc, keys_consider]
      split_ifs with hc
      · exact ih
      · exact List.nodup_append.mpr ⟨ih, List.nodup_singleton _, fun a ha b hb hab => hc (by
          rw [← List.mem_singleton.mp hb, ← hab]
          exact ha)⟩

/-- What one more entry does. -/
theorem mem_consider {best : List (κ × σ)} {c' : κ} {y : σ} :
    (c', y) ∈ consider best c x ↔ (c' ≠ c ∧ (c', y) ∈ best) ∨
      (c' = c ∧ ((c ∉ best.map Prod.fst ∧ y = x) ∨ ∃ z, (c, z) ∈ best ∧ y = max z x)) := by
  unfold consider
  by_cases hc : c ∈ best.map Prod.fst
  · rw [if_pos hc, List.mem_map]
    constructor
    · rintro ⟨⟨c₀, z⟩, hmem, he⟩
      dsimp only at he
      split_ifs at he with hlt
      · rcases hlt with ⟨rfl, hlt⟩
        cases he
        exact Or.inr ⟨rfl, Or.inr ⟨z, hmem, (max_eq_right hlt.le).symm⟩⟩
      · cases he
        by_cases heq : c' = c
        · subst heq
          have hle : x ≤ y := not_lt.mp fun h => hlt ⟨rfl, h⟩
          exact Or.inr ⟨rfl, Or.inr ⟨y, hmem, (max_eq_left hle).symm⟩⟩
        · exact Or.inl ⟨heq, hmem⟩
    · rintro (⟨hne, hmem⟩ | ⟨rfl, ⟨hnot, -⟩ | ⟨z, hmem, rfl⟩⟩)
      · exact ⟨(c', y), hmem, if_neg fun h => hne h.1⟩
      · exact absurd hc hnot
      · refine ⟨(c', z), hmem, ?_⟩
        dsimp only
        split_ifs with hlt
        · rw [max_eq_right hlt.2.le]
        · rw [max_eq_left (not_lt.mp fun h => hlt ⟨rfl, h⟩)]
  · rw [if_neg hc, List.mem_append, List.mem_singleton]
    constructor
    · rintro (hmem | heq)
      · by_cases heq : c' = c
        · subst heq
          exact absurd (List.mem_map_of_mem (f := Prod.fst) hmem) hc
        · exact Or.inl ⟨heq, hmem⟩
      · cases heq
        exact Or.inr ⟨rfl, Or.inl ⟨hc, rfl⟩⟩
    · rintro (⟨-, hmem⟩ | ⟨rfl, ⟨-, rfl⟩ | ⟨z, hmem, -⟩⟩)
      · exact Or.inl hmem
      · exact Or.inr rfl
      · exact absurd (List.mem_map_of_mem (f := Prod.fst) hmem) hc

theorem mem_keys_bestScores :
    c ∈ (bestScores key score rows).map Prod.fst ↔ ∃ row ∈ rows, key row = c := by
  induction rows using List.reverseRecOn with
  | nil => simp [bestScores]
  | append_singleton rows row ih =>
      rw [bestScores_snoc, keys_consider]
      constructor
      · intro h
        split_ifs at h with hkey
        · rcases ih.mp h with ⟨other, hother, hc⟩
          exact ⟨other, List.mem_append_left _ hother, hc⟩
        · rcases List.mem_append.mp h with h | h
          · rcases ih.mp h with ⟨other, hother, hc⟩
            exact ⟨other, List.mem_append_left _ hother, hc⟩
          · exact ⟨row, List.mem_append_right _ (List.mem_singleton_self _),
              (List.mem_singleton.mp h).symm⟩
      · rintro ⟨other, hother, hc⟩
        rcases List.mem_append.mp hother with hother | hother
        · have hold := ih.mpr ⟨other, hother, hc⟩
          split_ifs
          · exact hold
          · exact List.mem_append_left _ hold
        · rw [List.mem_singleton.mp hother] at hc
          subst hc
          split_ifs with hkey
          · exact hkey
          · exact List.mem_append_right _ (List.mem_singleton_self _)

/-- The map holds the best score of each key. -/
theorem mem_bestScores : (c, x) ∈ bestScores key score rows ↔ IsBest key score rows c x := by
  induction rows using List.reverseRecOn generalizing x with
  | nil => simp [bestScores, IsBest]
  | append_singleton rows row ih =>
      have hkeys : key row ∉ (bestScores key score rows).map Prod.fst ↔
          ∀ other ∈ rows, key other ≠ key row := by
        rw [mem_keys_bestScores]
        push Not
        rfl
      rw [bestScores_snoc, mem_consider, isBest_snoc, ih, hkeys]
      constructor
      · rintro (⟨hne, h⟩ | ⟨rfl, ⟨hnone, rfl⟩ | ⟨z, hz, rfl⟩⟩)
        · exact Or.inl ⟨Ne.symm hne, h⟩
        · exact Or.inr ⟨rfl, Or.inl ⟨hnone, rfl⟩⟩
        · exact Or.inr ⟨rfl, Or.inr ⟨z, ih.mp hz, rfl⟩⟩
      · rintro (⟨hne, h⟩ | ⟨rfl, ⟨hnone, rfl⟩ | ⟨z, hz, rfl⟩⟩)
        · exact Or.inl ⟨Ne.symm hne, h⟩
        · exact Or.inr ⟨rfl, Or.inl ⟨hnone, rfl⟩⟩
        · exact Or.inr ⟨rfl, Or.inr ⟨z, ih.mpr hz, rfl⟩⟩

end BestScores

/-! ## Least distances -/

section DistinctOn

variable [DecidableEq κ] [LinearOrder σ] {key : α → κ} {distance : α → σ} {rows : List α} {c : κ}
  {x : σ}

/-- `SELECT DISTINCT ON (key) key, distance … ORDER BY key, distance`. -/
def distinctOn (key : α → κ) (distance : α → σ) (rows : List α) : List (κ × σ) :=
  (rows.map key).dedup.filterMap fun c =>
    ((rows.filter fun row => key row = c).map distance).min?.map fun x => (c, x)

/-- Each key has one row, with its least distance. -/
theorem mem_distinctOn : (c, x) ∈ distinctOn key distance rows ↔
    (∃ row ∈ rows, key row = c ∧ distance row = x) ∧
      ∀ row ∈ rows, key row = c → x ≤ distance row := by
  unfold distinctOn
  rw [List.mem_filterMap]
  constructor
  · rintro ⟨c', -, h⟩
    rcases Option.map_eq_some_iff.mp h with ⟨y, hy, heq⟩
    cases heq
    rw [List.min?_eq_some_iff] at hy
    rcases hy with ⟨hmem, hle⟩
    rcases List.mem_map.mp hmem with ⟨row, hrow, rfl⟩
    rcases List.mem_filter.mp hrow with ⟨hrow, hc⟩
    refine ⟨⟨row, hrow, of_decide_eq_true hc, rfl⟩, fun other hother hkey => ?_⟩
    exact hle _ (List.mem_map_of_mem (List.mem_filter.mpr ⟨hother, decide_eq_true hkey⟩))
  · rintro ⟨⟨row, hrow, rfl, rfl⟩, hle⟩
    refine ⟨key row, List.mem_dedup.mpr (List.mem_map_of_mem hrow), ?_⟩
    apply Option.map_eq_some_iff.mpr
    refine ⟨distance row, List.min?_eq_some_iff.mpr ⟨?_, ?_⟩, rfl⟩
    · exact List.mem_map_of_mem (List.mem_filter.mpr ⟨hrow, decide_eq_true rfl⟩)
    · intro y hy
      rcases List.mem_map.mp hy with ⟨other, hother, rfl⟩
      rcases List.mem_filter.mp hother with ⟨hother, hkey⟩
      exact hle other hother (of_decide_eq_true hkey)

theorem nodup_distinctOn : ((distinctOn key distance rows).map Prod.fst).Nodup := by
  have hsublist : ∀ keys : List κ, ((keys.filterMap fun c =>
      ((rows.filter fun row => key row = c).map distance).min?.map fun x => (c, x)).map
        Prod.fst).Sublist keys := by
    intro keys
    induction keys with
    | nil => exact List.Sublist.slnil
    | cons c keys ih =>
        rw [List.filterMap_cons]
        cases ((rows.filter fun row => key row = c).map distance).min? with
        | none => exact ih.cons c
        | some x => exact ih.cons_cons c
  exact (List.nodup_dedup _).sublist (hsublist _)

end DistinctOn

/-! ## Rankings -/

/-- The same scores, and the same entries above some entry and where fewer than `k` are
found. -/
structure SameUpToTies [LT σ] (score : α → σ) (k : Nat) (l m : List α) : Prop where
  scores : l.map score = m.map score
  above : ∀ a, (l.length < k ∨ ∃ b ∈ l, score b < score a) → (a ∈ l ↔ a ∈ m)

section Rankings

variable [LinearOrder σ] {score : α → σ} {k : Nat} {l m rows rows' : List α}

/-- An entry that no other exceeds is among the first `k`, or they all score as much. -/
theorem first_of_max (hl : l.Pairwise fun a b => score b ≤ score a) {a : α} (ha : a ∈ l)
    (hmax : ∀ b ∈ l, score b ≤ score a) (hk : 1 ≤ k) :
    (∃ b, (l.take k).head? = some b ∧ score b = score a) ∧
      (a ∈ l.take k ∨ (l.take k).length = k ∧ ∀ b ∈ l.take k, score b = score a) := by
  have hsplit := hl
  rw [← List.take_append_drop k l] at hsplit
  have hafter := (List.pairwise_append.mp hsplit).2.2
  have hall : a ∈ l.drop k → ∀ b ∈ l.take k, score b = score a := fun hdrop b hb =>
    le_antisymm (hmax b (List.mem_of_mem_take hb)) (hafter b hb a hdrop)
  have hwhere : a ∈ l.take k ∨ a ∈ l.drop k := by
    rw [← List.take_append_drop k l] at ha
    exact List.mem_append.mp ha
  constructor
  · cases l with
    | nil => cases ha
    | cons b rest =>
        refine ⟨b, ?_, ?_⟩
        · rw [List.head?_take, if_neg (by omega)]
          rfl
        · apply le_antisymm (hmax b List.mem_cons_self)
          rcases List.mem_cons.mp ha with rfl | hrest
          · exact le_rfl
          · exact (List.pairwise_cons.mp hl).1 a hrest
  · rcases hwhere with htake | hdrop
    · exact Or.inl htake
    · right
      have hlength := List.length_pos_of_mem hdrop
      rw [List.length_drop] at hlength
      refine ⟨?_, hall hdrop⟩
      rw [List.length_take]
      omega

/-- What scores more than an entry of the first `k` is itself one. -/
theorem mem_take_of_lt (hl : l.Pairwise fun a b => score b ≤ score a) {a b : α}
    (hb : b ∈ l.take k) (hlt : score b < score a) (ha : a ∈ l) : a ∈ l.take k := by
  rw [← List.take_append_drop k l] at ha hl
  rcases List.mem_append.mp ha with ha | ha
  · exact ha
  · exact absurd hlt (not_lt.mpr ((List.pairwise_append.mp hl).2.2 b hb a ha))

/-- Two arrangements of the same rows. -/
theorem sameUpToTies_of_perm (h : rows.Perm rows')
    (o o' : Select.Arrangement fun a b => score b ≤ score a) :
    SameUpToTies score k ((o.run rows).take k) ((o'.run rows').take k) := by
  have hperm : (o.run rows).Perm (o'.run rows') :=
    (o.perm rows).trans (h.trans (o'.perm rows').symm)
  have hscores : (o.run rows).map score = (o'.run rows').map score := by
    have hsorted : ∀ (p : Select.Arrangement fun a b => score b ≤ score a) (list : List α),
        ((p.run list).map score).Pairwise fun x y => y ≤ x :=
      fun p list => List.pairwise_map.mpr (p.sorted list)
    refine List.Perm.eq_of_pairwise ?_ (hsorted o rows) (hsorted o' rows') (hperm.map score)
    exact fun x y _ _ hxy hyx => le_antisymm hyx hxy
  have htake : ((o.run rows).take k).map score = ((o'.run rows').take k).map score := by
    rw [List.map_take, List.map_take, hscores]
  refine ⟨htake, ?_⟩
  rintro a (hlength | ⟨b, hb, hlt⟩)
  · have hshort : (o.run rows).length < k := by
      rw [List.length_take] at hlength
      omega
    rw [List.take_of_length_le hshort.le, List.take_of_length_le (hperm.length_eq ▸ hshort.le)]
    exact hperm.mem_iff
  · constructor
    · intro ha
      have hmem : score b ∈ ((o'.run rows').take k).map score := by
        rw [← htake]
        exact List.mem_map_of_mem hb
      rcases List.mem_map.mp hmem with ⟨b', hb', heq⟩
      refine mem_take_of_lt (o'.sorted rows') hb' (heq ▸ hlt) ?_
      exact hperm.mem_iff.mp (List.mem_of_mem_take ha)
    · intro ha
      refine mem_take_of_lt (o.sorted rows) hb hlt ?_
      exact hperm.mem_iff.mpr (List.mem_of_mem_take ha)

/-- Rankings that are not cut off have the same entries. -/
theorem SameUpToTies.mem_iff (h : SameUpToTies score k l m) (hlength : l.length < k) (a : α) :
    a ∈ l ↔ a ∈ m :=
  h.above a (Or.inl hlength)

end Rankings

end TopK
