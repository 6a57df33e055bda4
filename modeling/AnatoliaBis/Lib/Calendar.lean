import Mathlib.Algebra.BigOperators.Intervals
import Mathlib.Algebra.Order.BigOperators.Group.Finset

/-! # The Gregorian calendar

Dates of the proleptic Gregorian calendar, from the number of days since
1970-01-01: the years are laid end to end and, within a year, its months.
`locate` finds the piece a position falls in, and keeps the order of positions
(`locate_before`); so the calendar order of two dates is the order of their
numbers (`Date.ofDays_before_iff`), whatever months and leap years lie between.
-/

namespace Calendar

/-! ## Pieces laid end to end -/

/-- With pieces `i`, `i + 1`, … of lengths `len`, the piece that position `n`
falls in and how far into it; `fuel` bounds the pieces passed over. -/
def locate (len : Nat → Nat) : (fuel i n : Nat) → Nat × Nat
  | 0, i, n => (i, n)
  | fuel + 1, i, n => if n < len i then (i, n) else locate len fuel (i + 1) (n - len i)

/-- Where piece `j` begins, counted from the beginning of piece `i`. -/
def start (len : Nat → Nat) (i j : Nat) : Nat := ∑ k ∈ Finset.Ico i j, len k

theorem start_succ (len : Nat → Nat) {i j : Nat} (h : i ≤ j) :
    start len i (j + 1) = start len i j + len j :=
  Finset.sum_Ico_succ_top h len

theorem start_mono (len : Nat → Nat) {i j k : Nat} (h : j ≤ k) :
    start len i j ≤ start len i k :=
  Finset.sum_le_sum_of_subset (Finset.Ico_subset_Ico_right h)

/-- What `locate` returns: a piece, and a position inside it. -/
theorem locate_spec {len : Nat → Nat} (hlen : ∀ i, 0 < len i) (fuel i n : Nat) (h : n ≤ fuel) :
    i ≤ (locate len fuel i n).1 ∧
      start len i (locate len fuel i n).1 + (locate len fuel i n).2 = n ∧
      (locate len fuel i n).2 < len (locate len fuel i n).1 := by
  induction fuel generalizing i n with
  | zero =>
      have : n = 0 := by omega
      subst this
      exact ⟨Nat.le_refl i, by simp [locate, start], hlen i⟩
  | succ fuel ih =>
      unfold locate
      split_ifs with hlt
      · exact ⟨Nat.le_refl i, by simp [start], hlt⟩
      · have hpos := hlen i
        rcases ih (i + 1) (n - len i) (by omega) with ⟨hi, hn, hr⟩
        refine ⟨by omega, ?_, hr⟩
        have hfirst : start len i (locate len fuel (i + 1) (n - len i)).1 =
            len i + start len (i + 1) (locate len fuel (i + 1) (n - len i)).1 :=
          Finset.sum_eq_sum_Ico_succ_bot (by omega) len
        omega

/-- A later position lies in a later piece, or further into the same one. -/
theorem locate_before {len : Nat → Nat} (hlen : ∀ i, 0 < len i) {i n m : Nat} (h : n < m) :
    (locate len n i n).1 < (locate len m i m).1 ∨
      (locate len n i n).1 = (locate len m i m).1 ∧ (locate len n i n).2 < (locate len m i m).2 := by
  rcases locate_spec hlen n i n (Nat.le_refl n) with ⟨-, hn, -⟩
  rcases locate_spec hlen m i m (Nat.le_refl m) with ⟨hi, hm, hr⟩
  rcases Nat.lt_trichotomy (locate len n i n).1 (locate len m i m).1 with hlt | heq | hgt
  · exact Or.inl hlt
  · rw [heq] at hn
    exact Or.inr ⟨heq, by omega⟩
  · -- then `n` would lie past the whole of `m`'s piece
    have hpast := start_mono len (i := i) (Nat.succ_le_of_lt hgt)
    rw [Nat.succ_eq_add_one, start_succ len hi] at hpast
    omega

/-! ## Dates -/

structure Date where
  year : Nat
  month : Nat
  day : Nat
  deriving Repr, DecidableEq

/-- A leap year of the Gregorian calendar. -/
def isLeap (year : Nat) : Bool := year % 4 == 0 && (year % 100 != 0 || year % 400 == 0)

def daysInYear (year : Nat) : Nat := if isLeap year then 366 else 365

def daysInMonth (year month : Nat) : Nat :=
  if month = 2 then (if isLeap year then 29 else 28)
  else if month = 4 ∨ month = 6 ∨ month = 9 ∨ month = 11 then 30
  else 31

theorem daysInYear_pos (year : Nat) : 0 < daysInYear year := by
  unfold daysInYear
  split_ifs <;> omega

theorem daysInMonth_range (year month : Nat) :
    0 < daysInMonth year month ∧ daysInMonth year month ≤ 31 := by
  unfold daysInMonth
  split_ifs <;> omega

/-- The twelve months make up the year. -/
theorem start_december (year : Nat) : start (daysInMonth year) 1 13 = daysInYear year := by
  have hsum : start (daysInMonth year) 1 13 = ∑ k ∈ Finset.range 12, daysInMonth year (1 + k) :=
    Finset.sum_Ico_eq_sum_range _ _ _
  rw [hsum]
  unfold daysInYear daysInMonth
  cases isLeap year <;> rfl

namespace Date

/-- The date `n` days after 1970-01-01. -/
def ofDays (n : Nat) : Date :=
  let inYear := locate daysInYear n 1970 n
  let inMonth := locate (daysInMonth inYear.1) inYear.2 1 inYear.2
  ⟨inYear.1, inMonth.1, inMonth.2 + 1⟩

example : ofDays 12843 = ⟨2005, 3, 1⟩ ∧ ofDays 12842 = ⟨2005, 2, 28⟩ := by decide +kernel

example : ofDays 11016 = ⟨2000, 2, 29⟩ := by decide +kernel

/-- The calendar order. -/
def Before (d d' : Date) : Prop :=
  d.year < d'.year ∨ d.year = d'.year ∧
    (d.month < d'.month ∨ d.month = d'.month ∧ d.day < d'.day)

/-- Months run from 1 to 12, days from 1 to 31. -/
theorem ofDays_range (n : Nat) :
    (1 ≤ (ofDays n).month ∧ (ofDays n).month ≤ 12) ∧
      1 ≤ (ofDays n).day ∧ (ofDays n).day ≤ 31 := by
  rcases locate_spec daysInYear_pos n 1970 n (Nat.le_refl n) with ⟨-, -, hyear⟩
  have hmonths : ∀ k, 0 < daysInMonth (locate daysInYear n 1970 n).1 k :=
    fun k => (daysInMonth_range _ k).1
  rcases locate_spec hmonths _ 1 _ (Nat.le_refl (locate daysInYear n 1970 n).2) with
    ⟨hfirst, hsum, hday⟩
  have hlast : (ofDays n).month ≤ 12 := by
    by_contra hlate
    have hpast := start_mono (daysInMonth (locate daysInYear n 1970 n).1) (i := 1)
      (Nat.succ_le_of_lt (Nat.lt_of_not_le hlate))
    rw [Nat.succ_eq_add_one, start_december] at hpast
    simp only [ofDays] at hpast
    omega
  have hrange := (daysInMonth_range (locate daysInYear n 1970 n).1 (ofDays n).month).2
  refine ⟨⟨hfirst, hlast⟩, Nat.le_add_left 1 _, ?_⟩
  exact Nat.le_trans hday hrange

theorem ofDays_before {n m : Nat} (h : n < m) : (ofDays n).Before (ofDays m) := by
  rcases locate_before daysInYear_pos (i := 1970) h with hyear | ⟨hyear, hday⟩
  · exact Or.inl hyear
  · refine Or.inr ⟨hyear, ?_⟩
    have hmonths : ∀ k, 0 < daysInMonth (locate daysInYear n 1970 n).1 k :=
      fun k => (daysInMonth_range _ k).1
    have := locate_before hmonths (i := 1) hday
    simp only [ofDays, ← hyear]
    omega

/-- **The order of dates is the order of their numbers.** -/
theorem ofDays_before_iff {n m : Nat} : (ofDays n).Before (ofDays m) ↔ n < m := by
  constructor
  · intro h
    by_contra hle
    rcases Nat.eq_or_lt_of_le (Nat.le_of_not_lt hle) with heq | hlt
    · subst heq
      unfold Before at h
      omega
    · have := ofDays_before hlt
      unfold Before at h this
      omega
  · exact ofDays_before

theorem ofDays_injective : Function.Injective ofDays := by
  intro n m h
  rcases Nat.lt_trichotomy n m with hlt | heq | hgt
  · have := ofDays_before hlt
    rw [h, ofDays_before_iff] at this
    exact absurd this (Nat.lt_irrefl m)
  · exact heq
  · have := ofDays_before hgt
    rw [h, ofDays_before_iff] at this
    exact absurd this (Nat.lt_irrefl m)

theorem ofDays_year_le {n m : Nat} (h : n ≤ m) : (ofDays n).year ≤ (ofDays m).year := by
  rcases Nat.eq_or_lt_of_le h with rfl | hlt
  · exact Nat.le_refl _
  · have := ofDays_before hlt
    unfold Before at this
    omega

end Date

end Calendar
