import Mathlib.Data.List.Sort

/-! # Selecting rows

`SELECT … WHERE … ORDER BY … LIMIT … OFFSET …` over rows of any type. Conditions
take one of the three truth values of SQL, and a row is selected where its
condition is true. An `ORDER BY` leaves open how rows of equal keys are arranged,
so the arrangement is a parameter; where it orders the rows there is only one, and
consecutive pages put together are the whole selection.
-/

namespace Select

variable {α β κ : Type}

/-- A condition on rows: true, false, or `none` for NULL. -/
abbrev Cond (α : Type) := α → Option Bool

namespace Cond

/-- `WHERE` keeps the rows on which the condition is true. -/
def holds (c : Cond α) (row : α) : Bool := c row == some true

/-- `col IS NULL`. -/
def isNull (col : α → Option β) : Cond α := fun row => some (col row).isNone

/-- A comparison with a value: NULL where the column is. -/
def compare (col : α → Option β) (test : β → Bool) : Cond α := fun row => (col row).map test

/-- `col = v`. -/
def equals [DecidableEq β] (col : α → Option β) (v : β) : Cond α :=
  compare col fun x => decide (x = v)

/-- `col IN (…)` and `col = ANY(…)`. -/
def within [DecidableEq β] (col : α → Option β) (vs : List β) : Cond α :=
  compare col fun x => decide (x ∈ vs)

/-- `c OR d`. -/
def or (c d : Cond α) : Cond α := fun row =>
  match c row, d row with
  | some true, _ | _, some true => some true
  | some false, some false => some false
  | _, _ => none

@[simp] theorem holds_isNull (col : α → Option β) (row : α) :
    (isNull col).holds row = (col row).isNone := by
  unfold holds isNull
  cases col row with
  | none => rfl
  | some v => rfl

@[simp] theorem holds_compare (col : α → Option β) (test : β → Bool) (row : α) :
    (compare col test).holds row = (col row).any test := by
  unfold holds compare
  cases col row with
  | none => rfl
  | some v =>
      show (some (test v) == some true) = test v
      cases test v with
      | false => rfl
      | true => rfl

@[simp] theorem holds_or (c d : Cond α) (row : α) :
    (c.or d).holds row = (c.holds row || d.holds row) := by
  unfold holds or
  rcases c row with _ | _ | _ <;> rcases d row with _ | _ | _ <;> rfl

end Cond

/-- The row meets all of the conditions that `AND` joins. -/
def meets (conds : List (Cond α)) (row : α) : Bool := conds.all fun c => c.holds row

@[simp] theorem meets_nil (row : α) : meets [] row = true := rfl

@[simp] theorem meets_singleton (c : Cond α) (row : α) : meets [c] row = c.holds row := by
  unfold meets
  rw [List.all_cons, List.all_nil, Bool.and_true]

@[simp] theorem meets_append (conds conds' : List (Cond α)) (row : α) :
    meets (conds ++ conds') row = (meets conds row && meets conds' row) := by
  unfold meets
  rw [List.all_append]

/-! ## Order -/

/-- What a database may do for an `ORDER BY` that puts `a` before `b` where
`r a b`. -/
structure Arrangement (r : α → α → Prop) where
  run : List α → List α
  perm : ∀ rows, (run rows).Perm rows
  sorted : ∀ rows, (run rows).Pairwise r

/-- `ORDER BY key DESC`, rows of equal keys in the order of the table. -/
def Arrangement.descending [LinearOrder κ] (key : α → κ) :
    Arrangement fun a b => key b ≤ key a where
  run rows := rows.mergeSort fun a b => decide (key b ≤ key a)
  perm rows := List.mergeSort_perm rows _
  sorted rows := by
    have hsorted : (rows.mergeSort fun a b => decide (key b ≤ key a)).Pairwise fun a b =>
        decide (key b ≤ key a) = true :=
      List.pairwise_mergeSort (fun a b c hab hbc => decide_eq_true
        ((of_decide_eq_true hbc).trans (of_decide_eq_true hab)))
        (fun a b => by simpa using le_total (key b) (key a)) rows
    exact hsorted.imp fun h => of_decide_eq_true h

/-- The order leaves no choice between two of the rows. -/
def Orders (r : α → α → Prop) (rows : List α) : Prop :=
  ∀ a ∈ rows, ∀ b ∈ rows, r a b → r b a → a = b

/-- Different keys are in order. -/
theorem orders_of_nodup [LinearOrder κ] {key : α → κ} {rows : List α}
    (h : (rows.map key).Nodup) : Orders (fun a b => key b ≤ key a) rows := by
  intro a ha b hb hab hba
  exact List.inj_on_of_nodup_map h ha hb (le_antisymm hba hab)

theorem Arrangement.run_eq {r : α → α → Prop} (o o' : Arrangement r) {rows : List α}
    (hrows : Orders r rows) : o.run rows = o'.run rows := by
  have hperm : (o.run rows).Perm (o'.run rows) := (o.perm rows).trans (o'.perm rows).symm
  refine List.Perm.eq_of_pairwise ?_ (o.sorted rows) (o'.sorted rows) hperm
  intro a b ha hb hab hba
  have ha' : a ∈ rows := (o.perm rows).mem_iff.mp ha
  have hb' : b ∈ rows := (o'.perm rows).mem_iff.mp hb
  exact hrows a ha' b hb' hab hba

/-! ## Pages -/

/-- `LIMIT … OFFSET …`. -/
def page (rows : List α) (limit offset : Nat) : List α := (rows.drop offset).take limit

theorem mem_of_mem_page {rows : List α} {limit offset : Nat} {row : α}
    (h : row ∈ page rows limit offset) : row ∈ rows :=
  List.mem_of_mem_drop (List.mem_of_mem_take h)

/-- Consecutive pages from the first one on. -/
theorem flatMap_page (rows : List α) (size n : Nat) :
    ((List.range n).flatMap fun i => page rows size (i * size)) = rows.take (n * size) := by
  induction n with
  | zero => rw [List.range_zero, List.flatMap_nil, Nat.zero_mul, List.take_zero]
  | succ n ih =>
      rw [List.range_succ, List.flatMap_append, ih, List.flatMap_singleton, Nat.succ_mul,
        List.take_add]
      rfl

/-! ## Selections -/

section Selections

variable {r : α → α → Prop}

/-- `SELECT COUNT(*) FROM … WHERE …`. -/
def count (conds : List (Cond α)) (rows : List α) : Nat := (rows.filter (meets conds)).length

/-- `SELECT … FROM … WHERE … ORDER BY … LIMIT … OFFSET …`. -/
def select (conds : List (Cond α)) (order : Arrangement r) (limit offset : Nat)
    (rows : List α) : List α :=
  page (order.run (rows.filter (meets conds))) limit offset

variable {conds : List (Cond α)} {rows : List α}

/-- Only rows of the table that meet the conditions are selected. -/
theorem of_mem_select {order : Arrangement r} {limit offset : Nat} {row : α}
    (h : row ∈ select conds order limit offset rows) : row ∈ rows ∧ meets conds row = true :=
  List.mem_filter.mp ((order.perm _).mem_iff.mp (mem_of_mem_page h))

/-- Where the order leaves no choice, what the database does for it does not matter. -/
theorem select_arrangement (hrows : Orders r rows) (o o' : Arrangement r) (limit offset : Nat) :
    select conds o limit offset rows = select conds o' limit offset rows := by
  have hselected : Orders r (rows.filter (meets conds)) := fun a ha b hb =>
    hrows a (List.mem_of_mem_filter ha) b (List.mem_of_mem_filter hb)
  unfold select
  rw [o.run_eq o' hselected]

/-- Behind the last row nothing is selected. -/
theorem select_eq_nil {order : Arrangement r} {limit offset : Nat}
    (h : count conds rows ≤ offset) : select conds order limit offset rows = [] := by
  have hlength : (order.run (rows.filter (meets conds))).length ≤ offset := by
    rw [(order.perm _).length_eq]
    exact h
  unfold select page
  rw [List.drop_eq_nil_of_le hlength, List.take_nil]

/-- Enough pages put together are all selected rows, each once, whatever the
database does for each of them. -/
theorem flatMap_select (hrows : Orders r rows) (order : Nat → Arrangement r)
    {size n : Nat} (hn : count conds rows ≤ n * size) :
    ((List.range n).flatMap fun i => select conds (order i) size (i * size) rows).Perm
      (rows.filter (meets conds)) := by
  have hsame : (fun i => select conds (order i) size (i * size) rows) =
      fun i => page ((order 0).run (rows.filter (meets conds))) size (i * size) := by
    funext i
    exact select_arrangement hrows (order i) (order 0) size (i * size)
  have hlength : ((order 0).run (rows.filter (meets conds))).length ≤ n * size := by
    rw [((order 0).perm _).length_eq]
    exact hn
  rw [hsame, flatMap_page, List.take_of_length_le hlength]
  exact (order 0).perm _

end Selections

end Select
