import Mathlib.Data.List.Basic

/-! # Separated fields

Fields joined by a separator character into one text. When a field may contain
the separator itself, the text no longer determines the fields: what it does
determine are the *pieces* between separators. `join_eq_iff` says so exactly,
and `join_cons_inj` recovers the first field when that one is known to be free
of the separator.
-/

namespace Separated

variable (sep : Char)

/-- The fields, one separator between two of them. -/
def join (fields : List String) : String :=
  (String.singleton sep).intercalate fields

/-- The texts between separators, of a field or of a joined text. -/
def pieces (s : String) : List (List Char) :=
  s.toList.splitOn sep

variable {sep}

@[simp] theorem join_singleton (s : String) : join sep [s] = s := by
  simp [join]

theorem toList_join_cons (s : String) {fields : List String} (h : fields ≠ []) :
    (join sep (s :: fields)).toList = s.toList ++ sep :: (join sep fields).toList := by
  simp [join, String.intercalate_cons_of_ne_nil h]

theorem pieces_eq_singleton {s : String} (h : sep ∉ s.toList) : pieces sep s = [s.toList] :=
  List.splitOn_eq_singleton h

/-- A text is determined by its pieces. -/
theorem pieces_inj {s t : String} : pieces sep s = pieces sep t ↔ s = t := by
  constructor
  · intro h
    have hst : [sep].intercalate (s.toList.splitOn sep) = [sep].intercalate (t.toList.splitOn sep) :=
      congrArg _ h
    rw [List.intercalate_splitOn, List.intercalate_splitOn] at hst
    exact String.toList_inj.mp hst
  · rintro rfl
    rfl

/-- The pieces of a joined text are those of its fields, one after the other. -/
theorem pieces_join {fields : List String} (h : fields ≠ []) :
    pieces sep (join sep fields) = fields.flatMap (pieces sep) := by
  induction fields with
  | nil => exact absurd rfl h
  | cons s rest ih =>
      cases rest with
      | nil => simp
      | cons t ts =>
          have hne : t :: ts ≠ [] := by simp
          rw [pieces, toList_join_cons s hne, List.splitOn_append_cons_self, List.flatMap_cons,
            ← ih hne]
          rfl

/-- **What a joined text determines.** -/
theorem join_eq_iff {fields fields' : List String} (h : fields ≠ []) (h' : fields' ≠ []) :
    join sep fields = join sep fields' ↔
      fields.flatMap (pieces sep) = fields'.flatMap (pieces sep) := by
  rw [← pieces_join h, ← pieces_join h', pieces_inj]

/-- A first field free of the separator can be read back. -/
theorem join_cons_inj {a b : String} {fields fields' : List String} (ha : sep ∉ a.toList)
    (hb : sep ∉ b.toList) (h : fields ≠ []) (h' : fields' ≠ []) :
    join sep (a :: fields) = join sep (b :: fields') ↔
      a = b ∧ join sep fields = join sep fields' := by
  rw [join_eq_iff (by simp) (by simp), join_eq_iff h h', List.flatMap_cons, List.flatMap_cons,
    pieces_eq_singleton ha, pieces_eq_singleton hb, List.singleton_append, List.singleton_append,
    List.cons.injEq, String.toList_inj]

end Separated
