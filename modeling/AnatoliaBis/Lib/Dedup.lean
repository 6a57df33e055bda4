import Mathlib.Data.List.Nodup

/-! # Storing without duplicates

Items are stored one after the other as rows of a table, unless their key has been seen.
Storing can fail, and a failed item counts as seen for the rest of the batch. What a batch has
stored is `Batch`: nothing twice, and nothing missing where nothing failed.
-/

namespace Dedup

variable {α β κ : Type} {key : α → κ} {tag : β → κ} {stores : α → β → Prop}
  {items items' : List α} {seen seen' : List κ} {rows rows' : List β} {item : α} {row : β}
  {P P' : Prop}

/-- The rows that a batch adds where the keys `seen` are known; `P` says that none failed. -/
structure Batch (key : α → κ) (tag : β → κ) (stores : α → β → Prop) (items : List α)
    (seen : List κ) (rows : List β) (P : Prop) : Prop where
  sound : ∀ row ∈ rows, ∃ item ∈ items, stores item row
  distinct : (rows.map tag).Nodup
  new : ∀ row ∈ rows, tag row ∉ seen
  complete : P → ∀ item ∈ items, key item ∈ seen ∨ key item ∈ rows.map tag

namespace Batch

theorem nil : Batch key tag stores [] seen [] P := ⟨nofun, List.nodup_nil, nofun, fun _ => nofun⟩

/-- A key that has been seen. -/
theorem skip (h : Batch key tag stores items seen rows P) (hseen : key item ∈ seen) :
    Batch key tag stores (item :: items) seen rows P where
  sound := by
    intro row hrow
    rcases h.sound row hrow with ⟨source, hsource, hstores⟩
    exact ⟨source, List.mem_cons_of_mem _ hsource, hstores⟩
  distinct := h.distinct
  new := h.new
  complete := by
    intro hP other hother
    rcases List.mem_cons.mp hother with rfl | hrest
    · exact Or.inl hseen
    · exact h.complete hP other hrest

/-- A new key whose item is not stored. -/
theorem fail (h : Batch key tag stores items (key item :: seen) rows P) (hP : ¬ P') :
    Batch key tag stores (item :: items) seen rows P' where
  sound := by
    intro row hrow
    rcases h.sound row hrow with ⟨source, hsource, hstores⟩
    exact ⟨source, List.mem_cons_of_mem _ hsource, hstores⟩
  distinct := h.distinct
  new row hrow hmem := h.new row hrow (List.mem_cons_of_mem _ hmem)
  complete hP' := absurd hP' hP

/-- A new key whose item is. -/
theorem store (h : Batch key tag stores items (key item :: seen) rows P)
    (hstores : stores item row) (htag : tag row = key item) (hkey : key item ∉ seen) :
    Batch key tag stores (item :: items) seen (row :: rows) P where
  sound := by
    intro other hother
    rcases List.mem_cons.mp hother with rfl | hrest
    · exact ⟨item, List.mem_cons_self, hstores⟩
    · rcases h.sound other hrest with ⟨source, hsource, hsourceStores⟩
      exact ⟨source, List.mem_cons_of_mem _ hsource, hsourceStores⟩
  distinct := by
    rw [List.map_cons, List.nodup_cons]
    refine ⟨?_, h.distinct⟩
    intro hmem
    rcases List.mem_map.mp hmem with ⟨other, hother, hsame⟩
    apply h.new other hother
    rw [hsame, htag]
    exact List.mem_cons_self
  new := by
    intro other hother
    rcases List.mem_cons.mp hother with rfl | hrest
    · rw [htag]
      exact hkey
    · exact fun hmem => h.new other hrest (List.mem_cons_of_mem _ hmem)
  complete := by
    intro hP other hother
    rw [List.map_cons, htag]
    rcases List.mem_cons.mp hother with rfl | hrest
    · exact Or.inr List.mem_cons_self
    · rcases h.complete hP other hrest with hmem | hmem
      · rcases List.mem_cons.mp hmem with hsame | hold
        · exact Or.inr (hsame ▸ List.mem_cons_self)
        · exact Or.inl hold
      · exact Or.inr (List.mem_cons_of_mem _ hmem)

theorem mono (h : Batch key tag stores items seen rows P) (hP : P' → P) :
    Batch key tag stores items seen rows P' :=
  ⟨h.sound, h.distinct, h.new, fun hP' => h.complete (hP hP')⟩

/-- One batch after another. -/
theorem append (h : Batch key tag stores items seen rows P)
    (h' : Batch key tag stores items' seen' rows' P)
    (htag : ∀ item row, stores item row → tag row = key item)
    (hseen : ∀ k, k ∈ seen' ↔ k ∈ seen ∨ k ∈ items.map key) :
    Batch key tag stores (items ++ items') seen (rows ++ rows') P where
  sound := by
    intro row hrow
    rcases List.mem_append.mp hrow with hrow | hrow
    · rcases h.sound row hrow with ⟨source, hsource, hstores⟩
      exact ⟨source, List.mem_append_left _ hsource, hstores⟩
    · rcases h'.sound row hrow with ⟨source, hsource, hstores⟩
      exact ⟨source, List.mem_append_right _ hsource, hstores⟩
  distinct := by
    rw [List.map_append, List.nodup_append']
    refine ⟨h.distinct, h'.distinct, ?_⟩
    intro k hk hk'
    rcases List.mem_map.mp hk with ⟨row, hrow, rfl⟩
    rcases List.mem_map.mp hk' with ⟨row', hrow', hsame⟩
    rcases h.sound row hrow with ⟨source, hsource, hstores⟩
    apply h'.new row' hrow'
    rw [hsame, hseen, htag source row hstores]
    exact Or.inr (List.mem_map_of_mem hsource)
  new := by
    intro row hrow
    rcases List.mem_append.mp hrow with hrow | hrow
    · exact h.new row hrow
    · exact fun hmem => h'.new row hrow ((hseen _).mpr (Or.inl hmem))
  complete := by
    intro hP item hitem
    rw [List.map_append, List.mem_append]
    rcases List.mem_append.mp hitem with hitem | hitem
    · exact (h.complete hP item hitem).imp_right Or.inl
    · rcases h'.complete hP item hitem with hmem | hmem
      · rcases (hseen _).mp hmem with hold | hfirst
        · exact Or.inl hold
        · rcases List.mem_map.mp hfirst with ⟨source, hsource, hsame⟩
          rw [← hsame]
          exact (h.complete hP source hsource).imp_right Or.inl
      · exact Or.inr (Or.inr hmem)

/-- A table without duplicates stays one, when its keys have been seen. -/
theorem nodup_append {table : List β} (h : Batch key tag stores items seen rows P)
    (htable : (table.map tag).Nodup) (hseen : ∀ row ∈ table, tag row ∈ seen) :
    ((table ++ rows).map tag).Nodup := by
  rw [List.map_append, List.nodup_append']
  refine ⟨htable, h.distinct, ?_⟩
  intro k hk hk'
  rcases List.mem_map.mp hk with ⟨row, hrow, rfl⟩
  rcases List.mem_map.mp hk' with ⟨row', hrow', hsame⟩
  apply h.new row' hrow'
  rw [hsame]
  exact hseen row hrow

end Batch

end Dedup
